import Mathlib.Data.List.TakeWhile
import Mathlib.Tactic.ByContra
import Provision.Proofs.Files.Place

/-!
# The parent of a path

A path that leads further down has a parent, one name above it, and its other parents are those of
its parent. So what is done to a path and all its parents is done to a path and then, in the same
way, to its parent.
-/

namespace Provision.Path

open Text

/-- A path whose last step, if it takes one, is a name. -/
def Settled (p : Path) : Prop := p.names.getLast? = some "." → descent p.names = []

/-- A path and what it adds to its parent: one name, and steps before and after it that stay. -/
structure Parent (p q : Path) (name : String) : Prop where
  absolute : q.isAbsolute = p.isAbsolute
  text : q.text.toList <+: p.text.toList
  settled : q.Settled
  ne_here : name ≠ "."
  names : ∃ before after, p.names = q.names ++ before ++ name :: after ∧
    descent before = [] ∧ descent after = []

/-! ## Idle pieces -/

theorem descent_namesOf_of_idle {parts : List (List Char)} (h : ∀ part ∈ parts, idle part = true) :
    descent (namesOf parts) = [] := by
  unfold descent namesOf
  rw [List.filter_eq_nil_iff]
  intro name hname
  obtain ⟨part, hpart, rfl⟩ := List.mem_map.mp hname
  obtain ⟨hmem, hne⟩ := List.mem_filter.mp hpart
  have hidle := h part hmem
  simp only [idle, Bool.or_eq_true, decide_eq_true_eq] at hidle
  rcases hidle with hidle | rfl
  · simp [hidle] at hne
  · simp

theorem ne_nil_of_not_idle {part : List Char} (h : idle part = false) : part ≠ [] := by
  rintro rfl
  simp [idle] at h

theorem ofList_ne_here {part : List Char} (h : idle part = false) : String.ofList part ≠ "." := by
  intro heq
  have hpart : part = ['.'] := by simpa using congrArg String.toList heq
  simp [idle, hpart] at h

theorem namesOf_append (front back : List (List Char)) :
    namesOf (front ++ back) = namesOf front ++ namesOf back := by
  simp [namesOf]

theorem namesOf_singleton {part : List Char} (h : part ≠ []) :
    namesOf [part] = [String.ofList part] := by
  simp [namesOf, h]

theorem exists_idle_tail (parts : List (List Char)) : ∃ kept tail, parts = kept ++ tail ∧
    kept.reverse = parts.reverse.dropWhile idle ∧ ∀ part ∈ tail, idle part = true := by
  refine ⟨(parts.reverse.dropWhile idle).reverse, (parts.reverse.takeWhile idle).reverse, ?_, by simp,
    fun part hpart => ?_⟩
  · rw [← List.reverse_append, List.takeWhile_append_dropWhile, List.reverse_reverse]
  · exact List.mem_takeWhile_imp (List.mem_reverse.mp hpart)

theorem parentsOf_dropWhile (first : List Char) (reversed : List (List Char)) :
    parentsOf first (reversed.dropWhile idle) = parentsOf first reversed := by
  induction reversed with
  | nil => rfl
  | cons part before ih =>
    by_cases hidle : idle part = true
    · rw [List.dropWhile_cons_of_pos hidle, ih, parentsOf, if_pos hidle]
    · rw [List.dropWhile_cons_of_neg hidle]

/-! ## Spelled parents -/

section Spell

variable {first : List Char} {reversed : List (List Char)}

theorem spell_eq (first : List Char) (reversed : List (List Char)) :
    spell first reversed = ⟨"/"⟩ ∧ first = [] ∧ reversed.dropWhile idle = [] ∨
      spell first reversed =
        ⟨String.ofList (['/'].intercalate (first :: (reversed.dropWhile idle).reverse))⟩ := by
  unfold spell
  simp only
  split
  · next hroot =>
    simp only [Bool.and_eq_true, List.isEmpty_iff, List.reverse_eq_nil_iff] at hroot
    exact .inl ⟨rfl, hroot.1, hroot.2⟩
  · exact .inr rfl

theorem kept_free (h : ∀ piece ∈ first :: reversed, '/' ∉ piece) :
    ∀ piece ∈ first :: (reversed.dropWhile idle).reverse, '/' ∉ piece := by
  intro piece hmem
  rcases List.mem_cons.mp hmem with rfl | hmem
  · exact h piece List.mem_cons_self
  · exact h piece (List.mem_cons_of_mem _ ((List.dropWhile_sublist _).mem (List.mem_reverse.mp hmem)))

theorem names_spell (h : ∀ piece ∈ first :: reversed, '/' ∉ piece) :
    (spell first reversed).names = namesOf (first :: (reversed.dropWhile idle).reverse) := by
  rcases spell_eq first reversed with ⟨hroot, rfl, hnil⟩ | hspell
  · rw [hroot, hnil]
    decide +kernel
  · rw [hspell, names_of_pieces (pieces_spelled _ _ (kept_free h))]
    rfl

theorem parents_spell (h : ∀ piece ∈ first :: reversed, '/' ∉ piece) :
    (spell first reversed).parents = parentsOf first reversed := by
  rw [← parentsOf_dropWhile first reversed]
  rcases spell_eq first reversed with ⟨hroot, rfl, hnil⟩ | hspell
  · rw [hroot, hnil]
    decide +kernel
  · rw [hspell, parents, pieces_spelled _ _ (kept_free h)]
    simp

theorem settled_spell (h : ∀ piece ∈ first :: reversed, '/' ∉ piece) :
    (spell first reversed).Settled := by
  unfold Settled
  rw [names_spell h]
  intro hlast
  cases hkept : reversed.dropWhile idle with
  | nil =>
    rw [hkept, List.reverse_nil] at hlast
    have hidle : idle first = true := by
      by_contra hne
      rw [Bool.not_eq_true] at hne
      rw [namesOf_singleton (ne_nil_of_not_idle hne)] at hlast
      exact ofList_ne_here hne (by simpa using hlast)
    exact descent_namesOf_of_idle (by simpa using hidle)
  | cons part before =>
    have hidle : idle part = false := by
      have hhead := List.head_dropWhile_not idle (l := reversed) (by simp [hkept])
      simpa [hkept] using hhead
    rw [hkept, List.reverse_cons, ← List.cons_append, namesOf_append,
      namesOf_singleton (ne_nil_of_not_idle hidle), List.getLast?_concat] at hlast
    exact absurd (Option.some.inj hlast) (ofList_ne_here hidle)

end Spell

theorem intercalate_prefix (first : List Char) {some more : List (List Char)} (h : some <+: more) :
    ['/'].intercalate (first :: some) <+: ['/'].intercalate (first :: more) := by
  induction some generalizing first more with
  | nil =>
    cases more with
    | nil => exact List.prefix_rfl
    | cons second rest =>
      rw [List.intercalate_cons_cons, List.append_assoc]
      simp
  | cons second rest ih =>
    obtain ⟨more, rfl⟩ := h
    rw [List.cons_append, List.intercalate_cons_cons, List.intercalate_cons_cons,
      List.prefix_append_right_inj]
    exact ih second (List.prefix_append rest more)

section

variable {p : Path} {first part : List Char} {before tail : List (List Char)}

theorem parent_of_first (hpieces : pieces '/' p.text.toList = first :: tail)
    (hfirst : idle first = false) (htail : ∀ part ∈ tail, idle part = true) :
    p.Parent ⟨""⟩ (String.ofList first) := by
  have hne := ne_nil_of_not_idle hfirst
  refine ⟨?_, by simp, ?_, ofList_ne_here hfirst, [], namesOf tail, ?_, rfl,
    descent_namesOf_of_idle htail⟩
  · rw [isAbsolute_of_pieces hpieces]
    simp [isAbsolute, hne]
  · intro hlast
    simp [names, pieces] at hlast
  · rw [names_of_pieces hpieces]
    simp [names, pieces, namesOf, hne]

theorem free_of_pieces (hpieces : pieces '/' p.text.toList = first :: (before ++ [part] ++ tail)) :
    ∀ piece ∈ first :: before.reverse, '/' ∉ piece := by
  intro piece hmem
  refine not_mem_of_mem_pieces (s := p.text.toList) ?_
  rw [hpieces]
  rcases List.mem_cons.mp hmem with rfl | hmem
  · exact List.mem_cons_self
  · simp [List.mem_reverse.mp hmem]

/-- What is spelled without the last piece that is not idle is the parent. -/
theorem parent_of_part (hpieces : pieces '/' p.text.toList = first :: (before ++ [part] ++ tail))
    (hpart : idle part = false) (htail : ∀ part ∈ tail, idle part = true) :
    p.Parent (spell first before.reverse) (String.ofList part) := by
  have hbefore := free_of_pieces hpieces
  obtain ⟨way, idles, hsplit, hway, hidles⟩ := exists_idle_tail before
  have hspelled := names_spell hbefore
  rw [← hway, List.reverse_reverse] at hspelled
  constructor
  case absolute =>
    rw [(spell_spec hbefore).1, isAbsolute_of_pieces hpieces]
    simp
  case text =>
    have hprefix : way <+: before ++ [part] ++ tail := by simp [hsplit]
    rw [toList_text_of_pieces hpieces]
    rcases spell_eq first before.reverse with ⟨hroot, rfl, -⟩ | hspell
    · rw [hroot]
      cases hmore : before ++ [part] ++ tail with
      | nil => simp at hmore
      | cons second more =>
        rw [List.intercalate_cons_cons]
        simp
    · rw [hspell, ← hway, List.reverse_reverse, String.toList_ofList]
      exact intercalate_prefix first hprefix
  case settled => exact settled_spell hbefore
  case ne_here => exact ofList_ne_here hpart
  case names =>
    refine ⟨namesOf idles, namesOf tail, ?_, descent_namesOf_of_idle hidles,
      descent_namesOf_of_idle htail⟩
    have hnames : p.names = namesOf (first :: (before ++ [part] ++ tail)) := names_of_pieces hpieces
    rw [hnames, hspelled, hsplit]
    simp only [← List.cons_append, namesOf_append, namesOf_singleton (ne_nil_of_not_idle hpart)]
    simp

end

/-- A path either stays where it starts or has a parent, whose parents are all its other ones. -/
theorem parents_cases (p : Path) : descent p.names = [] ∨
    ∃ q name, p.parents = q :: q.parents ∧ p.Parent q name := by
  obtain ⟨first, rest, hpieces⟩ := List.exists_cons_of_ne_nil (pieces_ne_nil '/' p.text.toList)
  obtain ⟨kept, tail, rfl, hkept, htail⟩ := exists_idle_tail rest
  have hparents : p.parents = parentsOf first kept.reverse := by
    rw [parents, hpieces, hkept, parentsOf_dropWhile]
  rcases List.eq_nil_or_concat kept with rfl | ⟨before, part, hconcat⟩
  · by_cases hidle : idle first = true
    · have hall : ∀ part ∈ first :: tail, idle part = true :=
        List.forall_mem_cons.mpr ⟨hidle, htail⟩
      left
      rw [names_of_pieces hpieces]
      exact descent_namesOf_of_idle hall
    · rw [Bool.not_eq_true] at hidle
      refine .inr ⟨⟨""⟩, _, ?_, parent_of_first hpieces hidle htail⟩
      rw [hparents, List.reverse_nil, parentsOf, if_neg (by simpa using ne_nil_of_not_idle hidle)]
      simp [parents, pieces, parentsOf]
  · rw [List.concat_eq_append] at hconcat
    subst hconcat
    have hidle : idle part = false := by
      have hhead := List.head?_dropWhile_not idle (before ++ [part] ++ tail).reverse
      rw [← hkept, List.reverse_append] at hhead
      simpa using hhead
    refine .inr ⟨_, _, ?_, parent_of_part hpieces hidle htail⟩
    rw [parents_spell (free_of_pieces hpieces), hparents, List.reverse_append, List.reverse_singleton,
      List.singleton_append, parentsOf, if_neg (by simp [hidle])]

end Provision.Path
