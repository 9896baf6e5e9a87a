import Provision.Proofs.Files.Place

/-!
# The steps of a path

A name that is joined to a path is one more step, however the path is written.
-/

namespace Provision.Path

open Text

theorem step_of_isName {name : String} (h : IsName name) : step name.toList = .name name := by
  have hhere : name.toList ≠ ['.'] := fun he => h.ne_here (String.toList_inj.mp he)
  have hup : name.toList ≠ ['.', '.'] := fun he => h.ne_up (String.toList_inj.mp he)
  rw [step, if_neg hhere, if_neg hup, String.ofList_toList]

theorem idle_of_isName {name : String} (h : IsName name) : idle name.toList = false := by
  have hhere : name.toList ≠ ['.'] := fun he => h.ne_here (String.toList_inj.mp he)
  simp [idle, hhere, toList_ne_nil h]

theorem components_of_pieces {p : Path} {first : List Char} {rest : List (List Char)}
    (h : pieces '/' p.text.toList = first :: rest) :
    p.components = (if !first.isEmpty then [step first] else if rest.isEmpty then [] else [.root]) ++
      (rest.filter (!idle ·)).map step := by
  unfold components
  rw [h]

theorem components_of_last_piece {dir file : Path} {first : List Char}
    {rest : List (List Char)} {name : String} (h : IsName name) (before : List (List Char))
    (hdir : pieces '/' dir.text.toList = first :: rest)
    (hfile : pieces '/' file.text.toList = first :: (before ++ [name.toList]))
    (hsame : before.filter (!idle ·) = rest.filter (!idle ·)) (hne : first = [] → rest ≠ []) :
    file.components = dir.components ++ [.name name] := by
  rw [components_of_pieces hdir, components_of_pieces hfile]
  cases first with
  | nil =>
    have hrest : rest.isEmpty = false := by simpa using hne rfl
    simp [hrest, hsame, idle_of_isName h, step_of_isName h]
  | cons c cs => simp [hsame, idle_of_isName h, step_of_isName h]

theorem exists_pieces (s : List Char) : ∃ first rest, pieces '/' s = first :: rest :=
  List.exists_cons_of_ne_nil (pieces_ne_nil '/' s)

theorem ne_nil_of_pieces {s first : List Char} {rest : List (List Char)}
    (h : pieces '/' s = first :: rest) (hs : s ≠ []) : first = [] → rest ≠ [] := by
  rintro rfl rfl
  have hjoined := intercalate_pieces '/' s
  rw [h] at hjoined
  exact hs hjoined.symm

theorem components_join (dir : Path) {name : String} (h : IsName name) :
    (dir.join name).components = dir.components ++ [.name name] := by
  have hname : pieces '/' name.toList = [name.toList] := pieces_of_not_mem h.no_slash
  rw [join_eq dir h]
  split
  · next hempty =>
    have hdir : pieces '/' dir.text.toList = [[]] := by simp_all [pieces]
    have hfile : (Path.mk name).components = [step name.toList] := by
      rw [components_of_pieces (p := ⟨name⟩) hname]
      simp [toList_ne_nil h]
    rw [hfile, components_of_pieces hdir, step_of_isName h]
    rfl
  · next hfilled =>
    have hne : dir.text.toList ≠ [] := by simpa using hfilled
    obtain ⟨first, rest, hdir⟩ := exists_pieces dir.text.toList
    split
    · next hslash =>
      -- Behind a slash at the end stands an empty piece, in whose place the name comes.
      obtain ⟨front, hfront⟩ := List.getLast?_eq_some_iff.mp (by simpa [asksDirectory] using hslash)
      obtain ⟨start, before, hbefore⟩ := exists_pieces front
      have hsplit : pieces '/' dir.text.toList = start :: (before ++ [[]]) := by
        rw [hfront, pieces_append_cons, hbefore]
        rfl
      refine components_of_last_piece h before hsplit ?_ (by simp [idle]) (by simp)
      rw [String.toList_append, hfront, List.append_assoc, List.singleton_append,
        pieces_append_cons, hbefore, hname, List.cons_append]
    · refine components_of_last_piece h rest hdir ?_ rfl (ne_nil_of_pieces hdir hne)
      rw [String.toList_append, String.toList_append, List.append_assoc]
      simp only [String.reduceToList, List.singleton_append]
      rw [pieces_append_cons, hdir, hname, List.cons_append]

end Provision.Path
