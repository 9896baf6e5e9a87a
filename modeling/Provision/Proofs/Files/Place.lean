import Provision.Files

/-!
# Where paths lead

A straight path, one that never leads up, shows in its text where it leads: from the root or the
working directory down along its names. The parents of a path lead to where it passes through.
-/

namespace Provision.Path

open Text

/-- None of the steps of a straight path is `..`. -/
def IsStraight (p : Path) : Prop := ".." ∉ p.names

/-- The names that lead further down. -/
def descent (names : List String) : Location := names.filter (· != ".")

@[simp] theorem descent_nil : descent [] = [] := rfl

@[simp] theorem descent_here_cons (names : List String) : descent ("." :: names) = descent names :=
  rfl

@[simp] theorem descent_cons {name : String} (h : name ≠ ".") (names : List String) :
    descent (name :: names) = name :: descent names :=
  List.filter_cons_of_pos (by simpa using h)

theorem descent_append (front back : List String) :
    descent (front ++ back) = descent front ++ descent back :=
  List.filter_append ..

theorem not_snoc_prefix (l : Location) (name : String) : ¬ l ++ [name] <+: l := by
  intro h
  have hlength := h.length_le
  rw [List.length_append, List.length_singleton] at hlength
  omega

/-- The location that a straight path leads to. -/
def place (p : Path) (cwd : Location) : Location :=
  (if p.isAbsolute then [] else cwd) ++ descent p.names

/-- A name that an entry of a directory can have. -/
structure IsName (name : String) : Prop where
  ne_empty : name ≠ ""
  ne_here : name ≠ "."
  ne_up : name ≠ ".."
  no_slash : '/' ∉ name.toList

/-! ## Joining -/

theorem names_of_no_slash {text : List Char} (h : '/' ∉ text) (ne : text ≠ []) :
    names ⟨String.ofList text⟩ = [String.ofList text] := by
  simp [names, pieces_of_not_mem h, ne]

theorem names_append_slash (front back : List Char) :
    names ⟨String.ofList (front ++ '/' :: back)⟩ =
      names ⟨String.ofList front⟩ ++ names ⟨String.ofList back⟩ := by
  simp [names, pieces_append_cons]

theorem toList_ne_nil {name : String} (h : IsName name) : name.toList ≠ [] := by
  intro hnil
  exact h.ne_empty (String.toList_inj.mp (by simpa using hnil))

theorem join_eq (dir : Path) {name : String} (h : IsName name) :
    dir.join name = if dir.text.isEmpty then ⟨name⟩
      else if dir.asksDirectory then ⟨dir.text ++ name⟩ else ⟨dir.text ++ "/" ++ name⟩ := by
  have hhead : name.toList.head? ≠ some '/' := fun he => h.no_slash (List.mem_of_mem_head? he)
  simp [join, hhead]

theorem names_join (dir : Path) {name : String} (h : IsName name) :
    (dir.join name).names = dir.names ++ [name] := by
  have hname : names ⟨name⟩ = [name] := by
    simpa using names_of_no_slash h.no_slash (toList_ne_nil h)
  rw [join_eq dir h]
  obtain ⟨text⟩ := dir
  split
  · next hempty =>
    have htext : text = "" := by simpa using hempty
    have hdir : names ⟨""⟩ = [] := by simp [names, pieces]
    rw [hname, htext, hdir, List.nil_append]
  · split
    · next hslash =>
      obtain ⟨front, hfront⟩ := List.getLast?_eq_some_iff.mp (by simpa [asksDirectory] using hslash)
      have htext : text = String.ofList (front ++ ['/']) := by rw [← hfront]; simp
      have hjoined : text ++ name = String.ofList (front ++ '/' :: name.toList) := by
        rw [htext]; apply String.toList_inj.mp; simp
      have hend : names ⟨String.ofList []⟩ = [] := by simp [names, pieces]
      simp only
      rw [hjoined, htext, names_append_slash, names_append_slash, hend]
      simp [hname]
    · have hjoined : text ++ "/" ++ name = String.ofList (text.toList ++ '/' :: name.toList) := by
        apply String.toList_inj.mp; simp
      simp only
      rw [hjoined, names_append_slash]
      simp [hname]

theorem isAbsolute_join (dir : Path) {name : String} (h : IsName name) :
    (dir.join name).isAbsolute = dir.isAbsolute := by
  have hhead : name.toList.head? ≠ some '/' := fun he => h.no_slash (List.mem_of_mem_head? he)
  rw [join_eq dir h]
  obtain ⟨text⟩ := dir
  split
  · next hempty =>
    have : text = "" := by simpa using hempty
    simp [isAbsolute, hhead, this]
  · next hempty =>
    have hne : text.toList ≠ [] := by
      intro hnil
      exact hempty (by simpa using hnil)
    split <;> simp [isAbsolute, List.head?_append, List.head?_eq_some_head hne]

theorem asksDirectory_join (dir : Path) {name : String} (h : IsName name) :
    (dir.join name).asksDirectory = false := by
  have hlast : name.toList.getLast? ≠ some '/' := fun he => h.no_slash (List.mem_of_getLast? he)
  have happend (front : List Char) : (front ++ name.toList).getLast? ≠ some '/' := by
    rw [List.getLast?_append, List.getLast?_eq_some_getLast (toList_ne_nil h)]
    rwa [List.getLast?_eq_some_getLast (toList_ne_nil h)] at hlast
  rw [join_eq dir h]
  split
  · simpa [asksDirectory] using hlast
  · split
    · simpa [asksDirectory] using happend dir.text.toList
    · simpa [asksDirectory] using happend (dir.text ++ "/").toList

theorem isStraight_join {dir : Path} {name : String} (hdir : dir.IsStraight) (h : IsName name) :
    (dir.join name).IsStraight := by
  unfold IsStraight at *
  rw [names_join dir h, List.mem_append, List.mem_singleton, not_or]
  exact ⟨hdir, Ne.symm h.ne_up⟩

theorem place_join (dir : Path) {name : String} (h : IsName name) (cwd : Location) :
    (dir.join name).place cwd = dir.place cwd ++ [name] := by
  simp [place, isAbsolute_join dir h, names_join dir h, descent_append, h.ne_here]

/-! ## Parents -/

theorem toList_text_of_pieces {p : Path} {first : List Char} {rest : List (List Char)}
    (h : pieces '/' p.text.toList = first :: rest) :
    p.text.toList = ['/'].intercalate (first :: rest) := by
  rw [← h, intercalate_pieces]

theorem names_of_pieces {p : Path} {first : List Char} {rest : List (List Char)}
    (h : pieces '/' p.text.toList = first :: rest) :
    p.names = ((first :: rest).filter (!·.isEmpty)).map String.ofList := by
  rw [names, h]

theorem isAbsolute_of_pieces {p : Path} {first : List Char} {rest : List (List Char)}
    (h : pieces '/' p.text.toList = first :: rest) :
    p.isAbsolute = (first.isEmpty && !rest.isEmpty) := by
  have hfirst : '/' ∉ first := not_mem_of_mem_pieces (by rw [h]; exact List.mem_cons_self)
  rw [isAbsolute, toList_text_of_pieces h]
  cases first with
  | nil => cases rest <;> simp
  | cons c cs =>
    have hc : c ≠ '/' := by
      intro he
      exact hfirst (by simp [he])
    cases rest <;> simp [hc]

theorem pieces_spelled (first : List Char) (rest : List (List Char))
    (h : ∀ piece ∈ first :: rest, '/' ∉ piece) :
    pieces '/' (Path.mk (String.ofList (['/'].intercalate (first :: rest)))).text.toList =
      first :: rest := by
  simpa using pieces_intercalate h

def namesOf (pieces : List (List Char)) : List String :=
  (pieces.filter (!·.isEmpty)).map String.ofList

theorem namesOf_prefix {some more : List (List Char)} (h : some <+: more) :
    namesOf some <+: namesOf more :=
  (h.filter _).map _

theorem spell_spec {first : List Char} {reversed : List (List Char)}
    (h : ∀ piece ∈ first :: reversed, '/' ∉ piece) :
    (spell first reversed).isAbsolute = first.isEmpty ∧
      (spell first reversed).names <+: namesOf (first :: reversed.reverse) := by
  have hkept : (reversed.dropWhile idle).reverse <+: reversed.reverse :=
    List.reverse_prefix.mpr (List.dropWhile_suffix _)
  unfold spell
  simp only
  split
  · next hroot =>
    simp only [Bool.and_eq_true] at hroot
    refine ⟨by simp [isAbsolute, hroot.1], ?_⟩
    rw [show names ⟨"/"⟩ = [] by decide +kernel]
    exact List.nil_prefix
  · next hroot =>
    have hpieces := pieces_spelled first (reversed.dropWhile idle).reverse (by
      intro piece hmem
      rcases List.mem_cons.mp hmem with rfl | hmem
      · exact h piece List.mem_cons_self
      · exact h piece (List.mem_cons_of_mem _ (by simpa using hkept.subset hmem)))
    refine ⟨?_, ?_⟩
    · rw [isAbsolute_of_pieces hpieces]
      cases hfirst : first.isEmpty <;> simp_all
    · rw [names_of_pieces hpieces]
      exact namesOf_prefix (List.prefix_cons_inj first |>.mpr hkept)

theorem of_mem_parentsOf {first : List Char} {reversed : List (List Char)} {q : Path}
    (h : ∀ piece ∈ first :: reversed, '/' ∉ piece) (hq : q ∈ parentsOf first reversed) :
    q.isAbsolute = (first.isEmpty && !reversed.isEmpty) ∧
      q.names <+: namesOf (first :: reversed.reverse) := by
  induction reversed with
  | nil =>
    unfold parentsOf at hq
    split at hq
    · simp at hq
    · next hfirst =>
      rw [List.mem_singleton.mp hq, show names ⟨""⟩ = [] by decide +kernel]
      simp [isAbsolute, hfirst]
  | cons part before ih =>
    have hbefore : ∀ piece ∈ first :: before, '/' ∉ piece := by
      intro piece hmem
      rcases List.mem_cons.mp hmem with rfl | hmem
      · exact h piece List.mem_cons_self
      · exact h piece (by simp [hmem])
    have hless : namesOf (first :: before.reverse) <+: namesOf (first :: (part :: before).reverse) :=
      namesOf_prefix (by simp)
    have hrest : q ∈ parentsOf first before → q.isAbsolute = first.isEmpty ∧
        q.names <+: namesOf (first :: (part :: before).reverse) := by
      intro hmem
      obtain ⟨habsolute, hnames⟩ := ih hbefore hmem
      refine ⟨?_, hnames.trans hless⟩
      cases before with
      | nil => cases first <;> simp_all [parentsOf]
      | cons _ _ => simpa using habsolute
    rw [show (first.isEmpty && !(part :: before).isEmpty) = first.isEmpty by simp]
    unfold parentsOf at hq
    split at hq
    · exact hrest hq
    · rcases List.mem_cons.mp hq with rfl | hq
      · obtain ⟨habsolute, hnames⟩ := spell_spec hbefore
        exact ⟨habsolute, hnames.trans hless⟩
      · exact hrest hq

theorem of_mem_parents {p q : Path} (hq : q ∈ p.parents) :
    q.isAbsolute = p.isAbsolute ∧ q.names <+: p.names := by
  unfold parents at hq
  split at hq
  · simp at hq
  · next first rest hpieces =>
    have h := of_mem_parentsOf (fun piece hmem => not_mem_of_mem_pieces (s := p.text.toList) (by
      rw [hpieces]
      simpa using hmem)) hq
    rw [isAbsolute_of_pieces hpieces, names_of_pieces hpieces]
    simpa [namesOf] using h

theorem place_of_mem_parents {p q : Path} (hq : q ∈ p.parents) (hp : p.IsStraight)
    (cwd : Location) : q.IsStraight ∧ q.place cwd <+: p.place cwd := by
  obtain ⟨habsolute, hnames⟩ := of_mem_parents hq
  refine ⟨fun hup => hp (hnames.subset hup), ?_⟩
  unfold place
  rw [habsolute, List.prefix_append_right_inj]
  exact hnames.filter _

end Provision.Path
