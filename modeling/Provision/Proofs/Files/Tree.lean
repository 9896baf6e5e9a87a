import Mathlib.Data.List.Induction
import Provision.Proofs.Files.Place

/-!
# File trees

A file system is a tree if every entry stands in a directory. In a tree a straight path exists just
if its text can be spelled and something is at its place. Making directories and writing files keep
a tree a tree and add entries at known places only.
-/

namespace Provision

/-- A text that a look-up of the path does not refuse for itself. -/
structure Path.Spellable (p : Path) : Prop where
  no_nul : p.text.toList.contains (Char.ofNat 0) = false
  length : p.text.utf8ByteSize ≤ Files.pathLimit
  names : ∀ name ∈ p.names, name.utf8ByteSize ≤ Files.nameLimit

namespace Files

/-- Every entry stands in a directory. -/
def IsTree (fs : Files) : Prop :=
  ∀ l name, (fs.at? (l ++ [name])).isSome → fs.at? l = some .directory

theorem isTree_of_no_nodes (cwd : Location) : IsTree { cwd } := by
  intro l name h
  unfold at? at h ⊢
  split at h
  · next hcwd =>
    rw [if_pos]
    rw [List.isPrefixOf_iff_prefix] at hcwd ⊢
    exact (List.prefix_append l [name]).trans hcwd
  · simp at h

theorem IsTree.directory_of_prefix {fs : Files} (h : fs.IsTree) {l rest : Location}
    (hrest : rest ≠ []) (hsome : (fs.at? (l ++ rest)).isSome) : fs.at? l = some .directory := by
  induction rest using List.reverseRecOn with
  | nil => exact absurd rfl hrest
  | append_singleton front name ih =>
    rw [← List.append_assoc] at hsome
    have hfront := h _ _ hsome
    by_cases hnil : front = []
    · simpa [hnil] using hfront
    · exact ih hnil (by simp [hfront])

theorem at?_of_prefix_cwd {fs : Files} {l : Location} (h : l <+: fs.cwd) :
    fs.at? l = some .directory := by
  rw [at?, if_pos (List.isPrefixOf_iff_prefix.mpr h)]

theorem not_isPrefixOf_cwd {fs : Files} {l : Location} (h : fs.at? l ≠ some .directory) :
    l.isPrefixOf fs.cwd = false := by
  rw [Bool.eq_false_iff]
  intro hcwd
  exact h (at?_of_prefix_cwd (List.isPrefixOf_iff_prefix.mp hcwd))

theorem IsTree.put {fs : Files} (h : fs.IsTree) {l : Location} {name : String} (node : Node)
    (hparent : fs.at? l = some .directory) (hfree : fs.at? (l ++ [name]) ≠ some .directory) :
    (fs.put (l ++ [name]) node).IsTree := by
  intro m other hsome
  have hput (k : Location) := at?_put fs (l ++ [name]) k node (not_isPrefixOf_cwd hfree)
  rw [hput] at hsome ⊢
  have hm : m ≠ l ++ [name] := by
    rintro rfl
    split at hsome
    · next heq => simp at heq
    · exact hfree (h _ _ hsome)
  rw [if_neg hm]
  split at hsome
  · next heq =>
    obtain ⟨rfl, -⟩ := List.append_inj' heq rfl
    exact hparent
  · exact h _ _ hsome

/-! ## Look-up -/

theorem enter_eq_ok {fs : Files} {here there : Location} {name : String} (hup : name ≠ "..")
    (h : fs.enter here name = .ok there) :
    there = here ++ Path.descent [name] ∧ name.utf8ByteSize ≤ nameLimit ∧
      (there = here ∨ fs.at? there = some .directory) := by
  unfold enter at h
  by_cases hhere : name = "."
  · rw [if_pos hhere] at h
    obtain rfl := Except.ok.inj h
    exact ⟨by simp [hhere], by rw [hhere]; decide +kernel, .inl rfl⟩
  · rw [if_neg hhere, if_neg hup] at h
    split at h
    · cases h
    · next hlength =>
      split at h
      · cases h
      · cases h
      · next hdirectory =>
        obtain rfl := Except.ok.inj h
        exact ⟨by simp [hhere], by omega, .inr hdirectory⟩

theorem enter_of_directory {fs : Files} {here : Location} {name : String} (hup : name ≠ "..")
    (hlength : name.utf8ByteSize ≤ nameLimit)
    (h : name ≠ "." → fs.at? (here ++ [name]) = some .directory) :
    fs.enter here name = .ok (here ++ Path.descent [name]) := by
  by_cases hhere : name = "."
  · simp [enter, hhere]
  · rw [enter, if_neg hhere, if_neg hup, if_neg (by omega), h hhere, Path.descent_cons hhere]
    rfl

/-- Walking along names that do not lead up ends below the start, in a directory. -/
theorem foldlM_enter_eq_ok {fs : Files} {names : List String} {start l : Location}
    (hup : ".." ∉ names) (hstart : fs.at? start = some .directory)
    (h : names.foldlM fs.enter start = .ok l) :
    l = start ++ Path.descent names ∧ (∀ name ∈ names, name.utf8ByteSize ≤ nameLimit) ∧
      fs.at? l = some .directory := by
  induction names generalizing start with
  | nil =>
    obtain rfl := Except.ok.inj h
    exact ⟨by simp, by simp, hstart⟩
  | cons name rest ih =>
    simp only [List.mem_cons, not_or] at hup
    rw [List.foldlM_cons] at h
    cases hmid : fs.enter start name with
    | error fault => rw [hmid] at h; cases h
    | ok mid =>
      rw [hmid] at h
      obtain ⟨hplace, hlength, hdirectory⟩ := enter_eq_ok (Ne.symm hup.1) hmid
      have hmiddle : fs.at? mid = some .directory := by
        rcases hdirectory with rfl | hdirectory
        · exact hstart
        · exact hdirectory
      obtain ⟨hend, hlengths, hl⟩ := ih hup.2 hmiddle h
      refine ⟨?_, List.forall_mem_cons.mpr ⟨hlength, hlengths⟩, hl⟩
      rw [hend, hplace, List.append_assoc, ← Path.descent_append]
      rfl

theorem foldlM_enter_of_directory {fs : Files} (htree : fs.IsTree) {names : List String}
    {start : Location} (hup : ".." ∉ names)
    (hlength : ∀ name ∈ names, name.utf8ByteSize ≤ nameLimit)
    (h : fs.at? (start ++ Path.descent names) = some .directory) :
    names.foldlM fs.enter start = .ok (start ++ Path.descent names) := by
  induction names generalizing start with
  | nil => simp [pure, Except.pure]
  | cons name rest ih =>
    simp only [List.mem_cons, not_or] at hup
    rw [List.forall_mem_cons] at hlength
    have hsplit : start ++ Path.descent (name :: rest) =
        start ++ Path.descent [name] ++ Path.descent rest := by
      rw [List.append_assoc, ← Path.descent_append]
      rfl
    rw [hsplit] at h ⊢
    have hname : name ≠ "." → fs.at? (start ++ [name]) = some .directory := by
      intro hhere
      rw [Path.descent_cons hhere, Path.descent_nil] at h
      by_cases hnil : Path.descent rest = []
      · rwa [hnil, List.append_nil] at h
      · exact htree.directory_of_prefix hnil (by rw [h]; rfl)
    rw [List.foldlM_cons, enter_of_directory (Ne.symm hup.1) hlength.1 hname]
    exact ih hup.2 hlength.2 h

theorem at?_start (fs : Files) (p : Path) :
    fs.at? (if p.isAbsolute then [] else fs.cwd) = some .directory := by
  split
  · exact at?_of_prefix_cwd List.nil_prefix
  · exact at?_of_prefix_cwd List.prefix_rfl

theorem locate_eq_entry {fs : Files} {p : Path} {l : Location} (hp : p.IsStraight)
    (h : fs.locate p = .ok (.entry l)) :
    p.Spellable ∧ l = p.place fs.cwd ∧
      ∃ parent name, l = parent ++ [name] ∧ fs.at? parent = some .directory := by
  unfold locate at h
  split at h
  · cases h
  · next hnul =>
    split at h
    · cases h
    · next hlength =>
      split at h
      · cases h
      · simp only at h
        split at h
        · cases h
        · next last hlast =>
          obtain ⟨front, hnames⟩ := List.getLast?_eq_some_iff.mp hlast
          rw [hnames, List.dropLast_concat] at h
          split at h
          · cases hwalk : (front ++ [last]).foldlM fs.enter (if p.isAbsolute then [] else fs.cwd) <;>
              rw [hwalk] at h <;> cases h
          · next hdots =>
            split at h
            · cases h
            · next parent hwalk =>
              split at h
              · cases h
              · next hlast =>
                obtain rfl : parent ++ [last] = l := by simpa using h
                simp only [Bool.or_eq_true, decide_eq_true_eq, not_or] at hdots
                have hup : ".." ∉ front := fun hmem => hp (by simp [hnames, hmem])
                obtain ⟨hplace, hlengths, hparent⟩ :=
                  foldlM_enter_eq_ok hup (at?_start fs p) hwalk
                refine ⟨⟨by simpa using hnul, by omega, ?_⟩, ?_, parent, last, rfl, hparent⟩
                · intro name hname
                  rw [hnames, List.mem_append, List.mem_singleton] at hname
                  rcases hname with hname | rfl
                  · exact hlengths name hname
                  · omega
                · rw [Path.place, hnames, Path.descent_append, Path.descent_cons hdots.1, hplace,
                    List.append_assoc]
                  rfl

theorem locate_of_directory {fs : Files} (htree : fs.IsTree) {p : Path} {front : List String}
    {last : String} (hp : p.IsStraight) (hnames : p.names = front ++ [last]) (hlast : last ≠ ".")
    (hspell : p.Spellable) {parent : Location} (hplace : p.place fs.cwd = parent ++ [last])
    (hparent : fs.at? parent = some .directory) :
    fs.locate p = .ok (.entry (p.place fs.cwd)) := by
  have hlengths := hspell.names
  rw [hnames, List.forall_mem_append] at hlengths
  have hup : ".." ∉ front := fun hmem => hp (by simp [hnames, hmem])
  have hlastup : last ≠ ".." := fun he => hp (by simp [hnames, he])
  have hne : p.text.isEmpty = false := by
    rw [Bool.eq_false_iff]
    intro hempty
    have : p.names = [] := by
      rw [show p = ⟨""⟩ by cases p; simpa using hempty]
      decide +kernel
    simp [this] at hnames
  have hfront : parent = (if p.isAbsolute then [] else fs.cwd) ++ Path.descent front := by
    rw [Path.place, hnames, Path.descent_append, Path.descent_cons hlast, ← List.append_assoc] at hplace
    exact (List.append_inj_left' hplace rfl).symm
  have hwalk := foldlM_enter_of_directory htree hup hlengths.1 (hfront ▸ hparent)
  have hle : ¬ nameLimit < last.utf8ByteSize := by
    have := hlengths.2 last (by simp)
    omega
  rw [locate, hspell.no_nul, hne, if_neg (by simp), if_neg (by have := hspell.length; omega),
    if_neg (by simp), hnames]
  simp only [List.getLast?_concat, List.dropLast_concat, hlast, hlastup, decide_false, Bool.or_self,
    Bool.false_eq_true, if_false, hwalk, hle, ← hfront, hplace]

theorem locate_ne_directory {fs : Files} {p : Path} {front : List String} {last : String}
    (hnames : p.names = front ++ [last]) (hlast : last ≠ ".") (hup : last ≠ "..") (l : Location) :
    fs.locate p ≠ .ok (.directory l) := by
  intro h
  unfold locate at h
  rw [hnames, List.getLast?_concat] at h
  simp only [hlast, hup, decide_false, Bool.or_self, Bool.false_eq_true, if_false] at h
  split at h
  · cases h
  · split at h
    · cases h
    · split at h
      · cases h
      · split at h
        · cases h
        · split at h <;> cases h

/-! ## Entries of a directory -/

section Entry

variable {fs : Files} {dir : Path} {name : String}

theorem locate_join_eq_ok (hdir : dir.IsStraight) (hname : Path.IsName name) {target : Target}
    (h : fs.locate (dir.join name) = .ok target) :
    (dir.join name).Spellable ∧ target = .entry (dir.place fs.cwd ++ [name]) ∧
      fs.at? (dir.place fs.cwd) = some .directory := by
  have hnames := Path.names_join dir hname
  cases target with
  | directory l => exact absurd h (locate_ne_directory hnames hname.ne_here hname.ne_up l)
  | entry l =>
    obtain ⟨hspell, hplace, parent, last, rfl, hparent⟩ :=
      locate_eq_entry (Path.isStraight_join hdir hname) h
    rw [Path.place_join dir hname] at hplace
    obtain ⟨rfl, hlast⟩ := List.append_inj' hplace rfl
    obtain rfl : last = name := by simpa using hlast
    exact ⟨hspell, rfl, hparent⟩

theorem locate_join (htree : fs.IsTree) (hdir : dir.IsStraight) (hname : Path.IsName name)
    (hspell : (dir.join name).Spellable)
    (hparent : fs.at? (dir.place fs.cwd) = some .directory) :
    fs.locate (dir.join name) = .ok (.entry (dir.place fs.cwd ++ [name])) := by
  have hplace := Path.place_join dir hname fs.cwd
  rw [← hplace]
  exact locate_of_directory htree (Path.isStraight_join hdir hname) (Path.names_join dir hname)
    hname.ne_here hspell hplace hparent

theorem exists?_join (h : fs.locate (dir.join name) = .ok (.entry (dir.place fs.cwd ++ [name])))
    (hname : Path.IsName name) :
    fs.exists? (dir.join name) = (fs.at? (dir.place fs.cwd ++ [name])).isSome := by
  rw [exists?, stat, h]
  simp only [Path.asksDirectory_join dir hname]
  cases fs.at? (dir.place fs.cwd ++ [name]) with
  | none => rfl
  | some node => cases node <;> rfl

theorem exists?_join_iff (htree : fs.IsTree) (hdir : dir.IsStraight) (hname : Path.IsName name) :
    fs.exists? (dir.join name) = true ↔
      (dir.join name).Spellable ∧ (fs.at? (dir.place fs.cwd ++ [name])).isSome := by
  constructor
  · intro h
    cases hlocate : fs.locate (dir.join name) with
    | error fault => simp [exists?, stat, hlocate, Except.isOk, Except.toBool] at h
    | ok target =>
      obtain ⟨hspell, rfl, -⟩ := locate_join_eq_ok hdir hname hlocate
      exact ⟨hspell, by rwa [← exists?_join hlocate hname]⟩
  · rintro ⟨hspell, hsome⟩
    rw [exists?_join (locate_join htree hdir hname hspell (htree _ _ hsome)) hname]
    exact hsome

theorem write_join_eq_ok (hdir : dir.IsStraight) (hname : Path.IsName name) {content : ByteArray}
    {after : Files} (h : fs.write (dir.join name) content = .ok after) :
    (dir.join name).Spellable ∧ fs.at? (dir.place fs.cwd) = some .directory ∧
      fs.at? (dir.place fs.cwd ++ [name]) ≠ some .directory ∧
      after = fs.put (dir.place fs.cwd ++ [name]) (.file content) := by
  unfold write writable at h
  cases hlocate : fs.locate (dir.join name) with
  | error fault => rw [hlocate] at h; cases h
  | ok target =>
    obtain ⟨hspell, rfl, hparent⟩ := locate_join_eq_ok hdir hname hlocate
    rw [hlocate] at h
    simp only [Path.asksDirectory_join dir hname, Bool.false_or, decide_eq_true_eq] at h
    split at h
    · cases h
    · next hfree =>
      exact ⟨hspell, hparent, hfree, (Except.ok.inj h).symm⟩

end Entry

/-! ## Growth -/

/-- What was there before is still there, and what is new satisfies `fresh`. -/
structure Grows (fresh : Location → Node → Prop) (before after : Files) : Prop where
  cwd : after.cwd = before.cwd
  tree : before.IsTree → after.IsTree
  same : ∀ l, after.at? l = before.at? l ∨
    before.at? l = none ∧ ∃ node, after.at? l = some node ∧ fresh l node

namespace Grows

variable {fresh wider : Location → Node → Prop} {a b c : Files}

theorem refl (fresh : Location → Node → Prop) (fs : Files) : Grows fresh fs fs :=
  ⟨rfl, id, fun _ => .inl rfl⟩

theorem trans (hab : Grows fresh a b) (hbc : Grows fresh b c) : Grows fresh a c where
  cwd := hbc.cwd.trans hab.cwd
  tree h := hbc.tree (hab.tree h)
  same l := by
    rcases hab.same l, hbc.same l with ⟨h | ⟨h, node, hb, hnode⟩, h' | ⟨h', hnew⟩⟩
    · exact .inl (h'.trans h)
    · exact .inr ⟨h ▸ h', hnew⟩
    · exact .inr ⟨h, node, h'.trans hb, hnode⟩
    · exact .inr ⟨h, hnew⟩

theorem mono (h : Grows fresh a b) (hw : ∀ l node, fresh l node → wider l node) :
    Grows wider a b :=
  ⟨h.cwd, h.tree, fun l => (h.same l).imp_right fun ⟨hnone, node, hb, hl⟩ =>
    ⟨hnone, node, hb, hw l node hl⟩⟩

theorem at?_of_not (h : Grows fresh a b) {l : Location} (hl : ∀ node, ¬ fresh l node) :
    b.at? l = a.at? l :=
  (h.same l).resolve_right fun ⟨_, node, _, hfresh⟩ => hl node hfresh

theorem put {fs : Files} {l : Location} {name : String} {node : Node}
    (hparent : fs.at? l = some .directory) (hfree : fs.at? (l ++ [name]) = none)
    (hfresh : fresh (l ++ [name]) node) : Grows fresh fs (fs.put (l ++ [name]) node) where
  cwd := rfl
  tree h := h.put node hparent (by simp [hfree])
  same m := by
    rw [at?_put _ _ _ _ (not_isPrefixOf_cwd (by simp [hfree]))]
    split
    · next heq => exact .inr ⟨heq ▸ hfree, node, rfl, heq ▸ hfresh⟩
    · exact .inl rfl

end Grows

def OnTheWay (goal : Location) (l : Location) (node : Node) : Prop :=
  l <+: goal ∧ node = .directory

theorem makeDirectory_eq_ok {fs after : Files} {p : Path} (hp : p.IsStraight)
    (h : fs.makeDirectory p = .ok after) : Grows (OnTheWay (p.place fs.cwd)) fs after := by
  unfold makeDirectory at h
  split at h
  · cases h
  · cases h
  · next l hlocate =>
    obtain ⟨-, hplace, parent, name, rfl, hparent⟩ := locate_eq_entry hp hlocate
    split at h
    · cases h
    · next hfree =>
      obtain rfl := Except.ok.inj h
      exact Grows.put hparent (by simpa using hfree) ⟨hplace ▸ List.prefix_rfl, rfl⟩

theorem OnTheWay.mono {goal further l : Location} {node : Node} (h : goal <+: further)
    (hl : OnTheWay goal l node) : OnTheWay further l node :=
  ⟨hl.1.trans h, hl.2⟩

theorem file_iff_of_grows {goal : Location} {before after : Files}
    (h : Grows (OnTheWay goal) before after) (l : Location) (content : ByteArray) :
    after.at? l = some (.file content) ↔ before.at? l = some (.file content) := by
  rcases h.same l with hsame | ⟨hnone, node, hnode, -, rfl⟩
  · rw [hsame]
  · simp [hnone, hnode]

theorem makeWithParents_grows {fs : Files} {paths : List Path} {goal : Location}
    (h : ∀ p ∈ paths, p.IsStraight ∧ p.place fs.cwd <+: goal) :
    Grows (OnTheWay goal) fs (fs.makeWithParents paths).1 := by
  induction paths with
  | nil => exact Grows.refl _ fs
  | cons p above ih =>
    obtain ⟨hp, hplace⟩ := h p List.mem_cons_self
    have habove := ih fun q hq => h q (List.mem_cons_of_mem _ hq)
    unfold makeWithParents
    split
    · exact Grows.refl _ fs
    · split
      · next made hmade =>
        exact (makeDirectory_eq_ok hp hmade).mono fun _ _ => .mono hplace
      · split
        · next held fault hheld => rwa [hheld] at habove
        · next held hheld =>
          rw [hheld] at habove
          split
          · next made hmade =>
            have hlast := makeDirectory_eq_ok hp hmade
            rw [habove.cwd] at hlast
            exact habove.trans (hlast.mono fun _ _ => .mono hplace)
          · split <;> exact habove
      · split <;> exact Grows.refl _ fs

/-- Directories are made only along the path. -/
theorem makeDirectories_grows (fs : Files) {p : Path} (hp : p.IsStraight) :
    Grows (OnTheWay (p.place fs.cwd)) fs (fs.makeDirectories p).1 := by
  apply makeWithParents_grows
  intro q hq
  rcases List.mem_cons.mp hq with rfl | hq
  · exact ⟨hp, List.prefix_rfl⟩
  · exact Path.place_of_mem_parents hq hp fs.cwd

theorem makeParent_grows (fs : Files) {p : Path} (hp : p.IsStraight) :
    Grows (OnTheWay (p.place fs.cwd)) fs (fs.makeParent p).1 := by
  unfold makeParent
  split
  · next parent hparent =>
    obtain ⟨hstraight, hplace⟩ :=
      Path.place_of_mem_parents (List.mem_of_mem_head? hparent) hp fs.cwd
    exact (makeDirectories_grows fs hstraight).mono fun _ _ => .mono hplace
  · exact Grows.refl _ fs

end Files

end Provision
