import Mathlib.Tactic.ByContra
import Provision.Proofs.Files.Parent
import Provision.Proofs.Files.Tree

/-!
# Walking down

In a tree a walk down along names is stopped by a name that is too long, by a file, or by a place
where nothing is. Only the first two are hurdles: what is missing can be made.
-/

namespace Provision

open Files Provision.Path

namespace Path

/-- Where a look-up of the path starts. -/
def origin (p : Path) (cwd : Location) : Location := if p.isAbsolute then [] else cwd

theorem place_eq (p : Path) (cwd : Location) : p.place cwd = p.origin cwd ++ descent p.names := rfl

/-- The fault that a look-up finds in the text alone. -/
def textFault? (p : Path) : Option Fault :=
  if p.text.toList.contains (Char.ofNat 0) then some .nulInPath
  else if pathLimit < p.text.utf8ByteSize then some .nameTooLong
  else none

theorem textFault?_eq_none {p : Path} (h : p.textFault? = none) :
    p.text.toList.contains (Char.ofNat 0) = false ∧ ¬ pathLimit < p.text.utf8ByteSize := by
  unfold textFault? at h
  split at h
  · cases h
  · next hnul =>
    split at h
    · cases h
    · next hlength => exact ⟨by simpa using hnul, hlength⟩

theorem textFault?_eq_some {p : Path} {fault : Fault} (h : p.textFault? = some fault) :
    fault = .nulInPath ∨ fault = .nameTooLong := by
  unfold textFault? at h
  split at h
  · exact .inl (Option.some.inj h).symm
  · split at h
    · exact .inr (Option.some.inj h).symm
    · cases h

/-- The last step of the path is a dot, which leads to a directory that must be there. -/
def endsHere (p : Path) : Bool := p.names.getLast? = some "."

theorem mem_of_descent_nil {names : List String} (h : descent names = []) :
    ∀ name ∈ names, name = "." := by
  simpa [descent, List.filter_eq_nil_iff] using h

section Parent

variable {p q : Path} {name : String} (h : p.Parent q name)

include h

theorem Parent.place_eq (cwd : Location) : p.place cwd = q.place cwd ++ [name] := by
  obtain ⟨before, after, hnames, hbefore, hafter⟩ := h.names
  simp [place, h.absolute, hnames, descent_append, descent_cons h.ne_here, hbefore, hafter]

theorem Parent.origin_eq (cwd : Location) : q.origin cwd = p.origin cwd := by
  simp [origin, h.absolute]

theorem Parent.isStraight (hp : p.IsStraight) : q.IsStraight := by
  obtain ⟨before, after, hnames, -⟩ := h.names
  intro hup
  exact hp (by simp [hnames, hup])

theorem Parent.ne_up (hp : p.IsStraight) : name ≠ ".." := by
  obtain ⟨before, after, hnames, -⟩ := h.names
  rintro rfl
  exact hp (by simp [hnames])

theorem Parent.textFault?_eq_none (hp : p.textFault? = none) : q.textFault? = none := by
  obtain ⟨rest, hrest⟩ := h.text
  have htext : p.text = q.text ++ String.ofList rest := by
    apply String.toList_inj.mp
    simp [hrest]
  obtain ⟨hnul, hlength⟩ := Path.textFault?_eq_none hp
  rw [htext, String.utf8ByteSize_append] at hlength
  rw [← hrest] at hnul
  rw [textFault?, if_neg (by simp_all), if_neg (by omega)]

end Parent

end Path

namespace Files

/-- A file is at the location. -/
def isFile (fs : Files) (l : Location) : Bool := fs.at? l matches some (.file _)

/-- What stops one who goes down along names and makes every directory that is missing. -/
def hurdle? (fs : Files) (here : Location) : List String → Option Fault
  | [] => none
  | name :: rest =>
    if name = "." then fs.hurdle? here rest
    else if nameLimit < name.utf8ByteSize then some .nameTooLong
    else if fs.isFile (here ++ [name]) then some .notDirectory
    else fs.hurdle? (here ++ [name]) rest

/-! ## Hurdles -/

section Hurdle

variable {a b fs : Files} {here : Location} {names : List String}

theorem hurdle?_append (front back : List String) : fs.hurdle? here (front ++ back) =
    (fs.hurdle? here front).or (fs.hurdle? (here ++ descent front) back) := by
  induction front generalizing here with
  | nil => simp [hurdle?]
  | cons name rest ih =>
    by_cases hhere : name = "."
    · simp [hurdle?, hhere, ih]
    · simp only [List.cons_append, hurdle?, if_neg hhere, descent_cons hhere]
      split
      · rfl
      · split
        · rfl
        · rw [ih, List.append_assoc]
          rfl

theorem hurdle?_of_stays (h : descent names = []) : fs.hurdle? here names = none := by
  induction names with
  | nil => rfl
  | cons name rest ih =>
    have hall := mem_of_descent_nil h
    obtain rfl := hall name List.mem_cons_self
    rw [hurdle?, if_pos rfl]
    exact ih h

theorem hurdle?_congr (h : ∀ l, l <+: here ++ descent names → a.isFile l = b.isFile l) :
    a.hurdle? here names = b.hurdle? here names := by
  induction names generalizing here with
  | nil => rfl
  | cons name rest ih =>
    by_cases hhere : name = "."
    · subst hhere
      exact ih h
    · have hsplit : here ++ descent (name :: rest) = here ++ [name] ++ descent rest := by
        simp [descent_cons hhere]
      rw [hsplit] at h
      rw [hurdle?, hurdle?, if_neg hhere, if_neg hhere, h _ (List.prefix_append _ _), ih h]

theorem hurdle?_of_missing (htree : fs.IsTree) (h : fs.at? here = none) :
    fs.hurdle? here names = none ∨ fs.hurdle? here names = some .nameTooLong := by
  induction names generalizing here with
  | nil => exact .inl rfl
  | cons name rest ih =>
    have hnone : fs.at? (here ++ [name]) = none := by
      by_contra hsome
      rw [← ne_eq, ← Option.isSome_iff_ne_none] at hsome
      simp [htree _ _ hsome] at h
    unfold hurdle?
    split
    · exact ih h
    · split
      · exact .inr rfl
      · rw [isFile, hnone]
        exact ih hnone

end Hurdle

/-! ## Walks -/

theorem foldlM_enter_of_stays {fs : Files} {here : Location} {names : List String}
    (h : descent names = []) : names.foldlM fs.enter here = .ok here := by
  induction names with
  | nil => rfl
  | cons name rest ih =>
    obtain rfl := mem_of_descent_nil h name List.mem_cons_self
    rw [List.foldlM_cons, enter, if_pos rfl]
    exact ih h

theorem IsTree.none_below {fs : Files} (htree : fs.IsTree) {l : Location} (h : fs.at? l = none)
    (rest : Location) : fs.at? (l ++ rest) = none := by
  by_cases hnil : rest = []
  · rwa [hnil, List.append_nil]
  · by_contra hsome
    have hdirectory := htree.directory_of_prefix hnil (Option.isSome_iff_ne_none.mpr hsome)
    rw [h] at hdirectory
    cases hdirectory

/-- How a walk down along names ends. -/
inductive Walked (fs : Files) (start : Location) (names : List String) :
    Except Fault Location → Prop
  | arrived (there : fs.at? (start ++ descent names) = some .directory)
      (clear : fs.hurdle? start names = none) :
      Walked fs start names (.ok (start ++ descent names))
  | missed (missing : fs.at? (start ++ descent names) = none)
      (clear : fs.hurdle? start names = none ∨ fs.hurdle? start names = some .nameTooLong) :
      Walked fs start names (.error .notFound)
  | tooLong (hurdle : fs.hurdle? start names = some .nameTooLong) :
      Walked fs start names (.error .nameTooLong)
  | blocked (hurdle : fs.hurdle? start names = some .notDirectory)
      (blocked : fs.at? (start ++ descent names) ≠ some .directory) :
      Walked fs start names (.error .notDirectory)

theorem Walked.congr {fs : Files} {start other : Location} {names more : List String}
    {result : Except Fault Location} (hplace : other ++ descent more = start ++ descent names)
    (hhurdle : fs.hurdle? other more = fs.hurdle? start names)
    (h : Walked fs start names result) : Walked fs other more result := by
  cases h with
  | arrived there clear => exact hplace ▸ .arrived (hplace ▸ there) (hhurdle ▸ clear)
  | missed missing clear => exact .missed (hplace ▸ missing) (hhurdle ▸ clear)
  | tooLong hurdle => exact .tooLong (hhurdle ▸ hurdle)
  | blocked hurdle blocked => exact .blocked (hhurdle ▸ hurdle) (hplace ▸ blocked)

theorem walked {fs : Files} (htree : fs.IsTree) {start : Location} {names : List String}
    (hup : ".." ∉ names) (hstart : fs.at? start = some .directory) :
    Walked fs start names (names.foldlM fs.enter start) := by
  induction names generalizing start with
  | nil =>
    have harrived : Walked fs start [] (.ok (start ++ descent [])) :=
      .arrived (by simpa using hstart) rfl
    rwa [descent_nil, List.append_nil] at harrived
  | cons name rest ih =>
    simp only [List.mem_cons, not_or] at hup
    rw [List.foldlM_cons]
    by_cases hhere : name = "."
    · subst hhere
      rw [enter, if_pos rfl]
      have hrest : Walked fs start ("." :: rest) (rest.foldlM fs.enter start) :=
        (ih hup.2 hstart).congr (by rfl) (by simp [hurdle?])
      exact hrest
    · have hplace : start ++ descent (name :: rest) = start ++ [name] ++ descent rest := by
        simp [descent_cons hhere]
      rw [enter, if_neg hhere, if_neg (Ne.symm hup.1)]
      by_cases hlong : nameLimit < name.utf8ByteSize
      · rw [if_pos hlong]
        exact .tooLong (by rw [hurdle?, if_neg hhere, if_pos hlong])
      · rw [if_neg hlong]
        cases hnode : fs.at? (start ++ [name]) with
        | none =>
          have hrest : fs.hurdle? start (name :: rest) = fs.hurdle? (start ++ [name]) rest := by
            simp [hurdle?, hhere, hlong, isFile, hnode]
          refine .missed ?_ (hrest ▸ hurdle?_of_missing htree hnode)
          rw [hplace]
          exact htree.none_below hnode _
        | some node =>
          cases node with
          | file content =>
            refine .blocked (by simp [hurdle?, hhere, hlong, isFile, hnode]) ?_
            rw [hplace]
            intro hend
            by_cases hnil : descent rest = []
            · simp [hnil, hnode] at hend
            · have hdirectory := htree.directory_of_prefix hnil (by rw [hend]; rfl)
              simp [hnode] at hdirectory
          | directory =>
            refine (ih hup.2 hnode).congr hplace ?_
            simp [hurdle?, hhere, hlong, isFile, hnode]

end Files

end Provision
