import Provision.Proofs.Files.Walk

/-!
# What keeps a directory from being made

Whether a straight path can be made a directory, and why not, depends on little: its text, the files
that stand in its way, and, if the path ends in a dot, whether its place is taken. It does not
depend on which of the directories on the way are missing.
-/

namespace Provision

open Files Provision.Path

namespace Files

/-- Why the directory cannot be made, if it cannot. -/
def makingFault? (fs : Files) (p : Path) : Option Fault :=
  if p.text.isEmpty then none
  else p.textFault?.or <|
    match fs.hurdle? (p.origin fs.cwd) p.names with
    | none => if p.endsHere && (fs.at? (p.place fs.cwd)).isNone then some .notFound else none
    | some .notDirectory =>
      -- At the last name a file is not in the way but in the place.
      if !p.endsHere && fs.isFile (p.place fs.cwd) then some .alreadyExists else some .notDirectory
    | some fault => some fault

/-! ## One directory -/

section Make

variable {fs : Files} {p q : Path} {name : String}

theorem at?_origin (fs : Files) (p : Path) : fs.at? (p.origin fs.cwd) = some .directory :=
  at?_start fs p

theorem endsHere_iff {front after : List String} (hnames : p.names = front ++ name :: after)
    (hname : name ≠ ".") (hafter : descent after = []) : p.endsHere = true ↔ after ≠ [] := by
  unfold endsHere
  rw [decide_eq_true_iff, hnames]
  rcases List.eq_nil_or_concat after with rfl | ⟨before, last, rfl⟩
  · simp [hname]
  · have hlast := mem_of_descent_nil hafter last (by simp)
    have hend : (name :: (before ++ ["."])).getLast? = some "." := by
      rw [← List.cons_append, List.getLast?_concat]
    simp [hlast, hend]

theorem locate_eq (fs : Files) (p : Path) : fs.locate p = match p.textFault? with
    | some fault => .error fault
    | none =>
      if p.text.isEmpty then .error .notFound
      else match p.names.getLast? with
        | none => .ok (.directory (p.origin fs.cwd))
        | some last =>
          if last = "." || last = ".." then
            (p.names.foldlM fs.enter (p.origin fs.cwd)).map .directory
          else match p.names.dropLast.foldlM fs.enter (p.origin fs.cwd) with
            | .error fault => .error fault
            | .ok parent =>
              if nameLimit < last.utf8ByteSize then .error .nameTooLong
              else .ok (.entry (parent ++ [last])) := by
  unfold locate textFault?
  split
  · rfl
  · split
    · rfl
    · rfl

theorem locate_of_parent (h : p.Parent q name) (hp : p.IsStraight) (htext : p.textFault? = none)
    (hne : p.text.isEmpty = false) : fs.locate p =
      match q.names.foldlM fs.enter (q.origin fs.cwd) with
      | .error fault => .error fault
      | .ok directory =>
        if nameLimit < name.utf8ByteSize then .error .nameTooLong
        else if p.endsHere then
          match fs.at? (directory ++ [name]) with
          | none => .error .notFound
          | some (.file _) => .error .notDirectory
          | some .directory => .ok (.directory (directory ++ [name]))
        else .ok (.entry (directory ++ [name])) := by
  obtain ⟨before, after, hnames, hbefore, hafter⟩ := h.names
  have hends : p.endsHere = true ↔ after ≠ [] := endsHere_iff hnames h.ne_here hafter
  have hup := h.ne_up hp
  have hwalk : (q.names ++ before).foldlM fs.enter (q.origin fs.cwd) =
      q.names.foldlM fs.enter (q.origin fs.cwd) := by
    rw [List.foldlM_append]
    cases q.names.foldlM fs.enter (q.origin fs.cwd) with
    | error fault => rfl
    | ok directory => exact foldlM_enter_of_stays hbefore
  rw [locate_eq, htext, hne, ← h.origin_eq]
  simp only [Bool.false_eq_true, if_false]
  rcases List.eq_nil_or_concat after with rfl | ⟨front, last, hconcat⟩
  · have hnot : p.endsHere = false := by simpa using hends
    rw [hnames, hnot]
    simp only [List.getLast?_concat, List.dropLast_concat, h.ne_here, hup, hwalk]
    cases q.names.foldlM fs.enter (q.origin fs.cwd) <;> simp
  · rw [List.concat_eq_append] at hconcat
    have hlast := mem_of_descent_nil hafter last (by simp [hconcat])
    have hyes : p.endsHere = true := by simp [hends, hconcat]
    have hgetLast : p.names.getLast? = some "." := by simpa [endsHere] using hyes
    simp only [hgetLast, hyes]
    rw [if_pos (by simp), hnames, List.foldlM_append, hwalk]
    cases q.names.foldlM fs.enter (q.origin fs.cwd) with
    | error fault => simp [Except.map, bind, Except.bind]
    | ok directory =>
      have hstays (here : Location) : after.foldlM fs.enter here = .ok here :=
        foldlM_enter_of_stays hafter
      simp only [bind, Except.bind, List.foldlM_cons, enter, h.ne_here, hup, hstays, if_false, if_true]
      by_cases hlong : nameLimit < name.utf8ByteSize
      · simp [hlong, Except.map]
      · cases fs.at? (directory ++ [name]) with
        | none => simp [hlong, Except.map]
        | some node => cases node <;> simp [hlong, Except.map]

section There

variable (h : p.Parent q name) (hp : p.IsStraight) (htext : p.textFault? = none)
  (hne : p.text.isEmpty = false)
  (hwalk : q.names.foldlM fs.enter (q.origin fs.cwd) = .ok (q.place fs.cwd))

include h hp htext hne hwalk

theorem makeDirectory_of_there : fs.makeDirectory p =
    if nameLimit < name.utf8ByteSize then .error .nameTooLong
    else match fs.at? (p.place fs.cwd) with
      | none => if p.endsHere then .error .notFound else .ok (fs.put (p.place fs.cwd) .directory)
      | some .directory => .error .alreadyExists
      | some (.file _) => .error (if p.endsHere then .notDirectory else .alreadyExists) := by
  rw [makeDirectory, locate_of_parent h hp htext hne, hwalk, h.place_eq]
  simp only
  by_cases hlong : nameLimit < name.utf8ByteSize
  · simp [hlong]
  · cases hhere : p.endsHere <;> cases hnode : fs.at? (q.place fs.cwd ++ [name]) with
    | none => simp [hlong, hnode]
    | some node => cases node <;> simp [hlong, hnode]

theorem isDirectory_of_there : fs.isDirectory p = true ↔
    ¬ nameLimit < name.utf8ByteSize ∧ fs.at? (p.place fs.cwd) = some .directory := by
  rw [isDirectory, stat, locate_of_parent h hp htext hne, hwalk, h.place_eq]
  simp only
  by_cases hlong : nameLimit < name.utf8ByteSize
  · simp [hlong]
  · cases hhere : p.endsHere <;> cases hnode : fs.at? (q.place fs.cwd ++ [name]) with
    | none => simp [hlong, hnode]
    | some node => cases node <;> cases p.asksDirectory <;> simp [hlong, hnode]

end There

theorem makeDirectory_of_refused (h : p.Parent q name) (hp : p.IsStraight)
    (htext : p.textFault? = none) (hne : p.text.isEmpty = false) {fault : Fault}
    (hwalk : q.names.foldlM fs.enter (q.origin fs.cwd) = .error fault) :
    fs.makeDirectory p = .error fault := by
  rw [makeDirectory, locate_of_parent h hp htext hne, hwalk]

/-! ## The fault that is to be expected -/

theorem hurdle?_of_parent (h : p.Parent q name) : fs.hurdle? (p.origin fs.cwd) p.names =
    (fs.hurdle? (q.origin fs.cwd) q.names).or
      (if nameLimit < name.utf8ByteSize then some .nameTooLong
        else if fs.isFile (p.place fs.cwd) then some .notDirectory else none) := by
  obtain ⟨before, after, hnames, hbefore, hafter⟩ := h.names
  rw [h.place_eq, h.origin_eq, hnames, hurdle?_append, hurdle?_append, descent_append, hbefore,
    hurdle?_of_stays hbefore, hurdle?, if_neg h.ne_here, hurdle?_of_stays hafter, Option.or_none,
    List.append_nil, ← h.origin_eq, place_eq]

theorem makingFault?_of_text {fault : Fault} (hne : p.text.isEmpty = false)
    (htext : p.textFault? = some fault) : fs.makingFault? p = some fault := by
  simp [makingFault?, hne, htext]

theorem makingFault?_of_clear (h : p.Parent q name) (htext : p.textFault? = none)
    (hne : p.text.isEmpty = false) (hclear : fs.hurdle? (q.origin fs.cwd) q.names = none) :
    fs.makingFault? p =
      if nameLimit < name.utf8ByteSize then some .nameTooLong
      else match fs.at? (p.place fs.cwd) with
        | none => if p.endsHere then some .notFound else none
        | some .directory => none
        | some (.file _) => some (if p.endsHere then .notDirectory else .alreadyExists) := by
  rw [makingFault?, hne, htext, hurdle?_of_parent h, hclear]
  by_cases hlong : nameLimit < name.utf8ByteSize
  · simp [hlong]
  · cases hhere : p.endsHere <;> cases hnode : fs.at? (p.place fs.cwd) with
    | none => simp [hlong, isFile, hnode]
    | some node => cases node <;> simp [hlong, isFile, hnode]

theorem makingFault?_of_hurdle (h : p.Parent q name) (htext : p.textFault? = none)
    (hne : p.text.isEmpty = false) {fault : Fault}
    (hhurdle : fs.hurdle? (q.origin fs.cwd) q.names = some fault)
    (hfile : fault = .nameTooLong ∨ fs.isFile (p.place fs.cwd) = false) :
    fs.makingFault? p = some fault := by
  rw [makingFault?, hne, htext, hurdle?_of_parent h, hhurdle]
  rcases hfile with rfl | hfile
  · simp
  · cases fault <;> simp [hfile]

theorem makingFault?_of_stays (h : descent p.names = []) (htext : p.textFault? = none) :
    fs.makingFault? p = none := by
  have hplace : fs.at? (p.place fs.cwd) = some .directory := by
    rw [place_eq, h, List.append_nil]
    exact at?_origin fs p
  unfold makingFault?
  simp [htext, hurdle?_of_stays h, hplace]

theorem makingFault?_of_settled (h : p.Settled) (htext : p.textFault? = none)
    (hclear : fs.hurdle? (p.origin fs.cwd) p.names = none) : fs.makingFault? p = none := by
  by_cases hhere : p.endsHere = true
  · exact makingFault?_of_stays (h (by simpa [endsHere] using hhere)) htext
  · unfold makingFault?
    simp [htext, hclear, hhere]

/-! ## Making directories -/

theorem isFile_of_grows {a b : Files} {goal : Location} (h : Grows (OnTheWay goal) a b)
    (l : Location) : b.isFile l = a.isFile l := by
  unfold isFile
  rcases h.same l with hsame | ⟨hnone, node, hnode, -, rfl⟩
  · rw [hsame]
  · rw [hnone, hnode]

theorem at?_of_grows_parent {held : Files} (h : p.Parent q name)
    (hgrows : Grows (OnTheWay (q.place fs.cwd)) fs held) :
    held.at? (p.place fs.cwd) = fs.at? (p.place fs.cwd) := by
  apply hgrows.at?_of_not
  rintro node ⟨hway, -⟩
  rw [h.place_eq] at hway
  exact not_snoc_prefix _ _ hway

theorem at?_put_self {l : Location} {node : Node} (hfree : fs.at? l ≠ some .directory) :
    (fs.put l node).at? l = some node := by
  rw [at?_put _ _ _ _ (not_isPrefixOf_cwd hfree), if_pos rfl]

/-- What comes of making a directory and all that are missing above it. -/
structure Makes (fs : Files) (p : Path) (result : Files × Option Fault) : Prop where
  fault : result.2 = fs.makingFault? p
  done : result.2 = none → result.1.at? (p.place fs.cwd) = some .directory
  failed : result.2 ≠ none → result.1.at? (p.place fs.cwd) = fs.at? (p.place fs.cwd)

theorem makeDirectories_eq (hne : p.text.isEmpty = false) (hparents : p.parents = q :: q.parents) :
    fs.makeDirectories p = match fs.makeDirectory p with
      | .ok made => (made, none)
      | .error .notFound =>
        match fs.makeDirectories q with
        | (held, some fault) => (held, some fault)
        | (held, none) =>
          match held.makeDirectory p with
          | .ok made => (made, none)
          | .error fault =>
            if fault = .alreadyExists && held.isDirectory p then (held, none)
            else (held, some fault)
      | .error fault =>
        if fault = .alreadyExists && fs.isDirectory p then (fs, none) else (fs, some fault) := by
  rw [makeDirectories, hparents, makeWithParents, if_neg (by simp [hne])]
  rfl

/-- The directories that are missing on the way are made, and then the path itself. -/
theorem makeDirectory_of_held {held : Files} (htree : held.IsTree) (h : p.Parent q name)
    (hp : p.IsStraight) (htext : p.textFault? = none) (hne : p.text.isEmpty = false)
    (hgrows : Grows (OnTheWay (q.place fs.cwd)) fs held)
    (hthere : held.at? (q.place fs.cwd) = some .directory)
    (hclear : fs.hurdle? (q.origin fs.cwd) q.names = none)
    (hmissing : fs.at? (p.place fs.cwd) = none) :
    held.at? (p.place fs.cwd) = none ∧ held.makeDirectory p =
      if nameLimit < name.utf8ByteSize then .error .nameTooLong
      else if p.endsHere then .error .notFound
      else .ok (held.put (p.place fs.cwd) .directory) := by
  have hnone : held.at? (p.place fs.cwd) = none := (at?_of_grows_parent h hgrows).trans hmissing
  refine ⟨hnone, ?_⟩
  have hheldClear : held.hurdle? (q.origin fs.cwd) q.names = none := by
    rw [hurdle?_congr fun l _ => isFile_of_grows hgrows l, hclear]
  have hwalked := walked htree (h.isStraight hp) (at?_origin held q)
  rw [hgrows.cwd] at hwalked
  have hwalk : q.names.foldlM held.enter (q.origin fs.cwd) = .ok (q.place fs.cwd) := by
    generalize q.names.foldlM held.enter (q.origin fs.cwd) = result at hwalked ⊢
    cases hwalked with
    | arrived => rfl
    | missed missing => simp [← place_eq, hthere] at missing
    | tooLong hurdle => simp [hheldClear] at hurdle
    | blocked hurdle => simp [hheldClear] at hurdle
  rw [← hgrows.cwd] at hwalk
  rw [makeDirectory_of_there h hp htext hne hwalk, hgrows.cwd, hnone]

theorem names_of_empty (h : p.text.isEmpty = true) : p.names = [] := by
  rw [show p = ⟨""⟩ by cases p; simpa using h]
  decide +kernel

theorem makeDirectories_of_empty (h : p.text.isEmpty = true) : fs.makeDirectories p = (fs, none) := by
  rw [makeDirectories, makeWithParents, if_pos h]

theorem makes_of_empty (h : p.text.isEmpty = true) : Makes fs p (fs.makeDirectories p) := by
  rw [makeDirectories_of_empty h]
  refine ⟨by simp [makingFault?, h], fun _ => ?_, fun _ => rfl⟩
  rw [place_eq, names_of_empty h, descent_nil, List.append_nil]
  exact at?_origin fs p

theorem makeDirectories_of_refused (hne : p.text.isEmpty = false) {fault : Fault}
    (hmake : fs.makeDirectory p = .error fault) (hfault : fault ≠ .notFound)
    (hnot : fault = .alreadyExists → fs.isDirectory p = false) :
    fs.makeDirectories p = (fs, some fault) := by
  rw [makeDirectories, makeWithParents, if_neg (by simp [hne]), hmake]
  cases fault <;> simp_all

theorem makes_of_refused (hne : p.text.isEmpty = false) {fault : Fault}
    (hmake : fs.makeDirectory p = .error fault) (hfault : fault ≠ .notFound)
    (hnot : fault = .alreadyExists → fs.isDirectory p = false)
    (hsame : fs.makingFault? p = some fault) : Makes fs p (fs.makeDirectories p) := by
  rw [makeDirectories_of_refused hne hmake hfault hnot]
  exact ⟨hsame.symm, by simp, fun _ => rfl⟩

theorem makes_of_text (hne : p.text.isEmpty = false) {fault : Fault}
    (htext : p.textFault? = some fault) : Makes fs p (fs.makeDirectories p) := by
  have hmake : fs.makeDirectory p = .error fault := by
    rw [makeDirectory, locate_eq, htext]
  have hfault := textFault?_eq_some htext
  refine makes_of_refused hne hmake ?_ ?_ (makingFault?_of_text hne htext)
  · rcases hfault with rfl | rfl <;> simp
  · rcases hfault with rfl | rfl <;> simp

theorem makes_of_stays (h : descent p.names = []) (htext : p.textFault? = none)
    (hne : p.text.isEmpty = false) : Makes fs p (fs.makeDirectories p) := by
  have hlocate : fs.locate p = .ok (.directory (p.origin fs.cwd)) := by
    rw [locate_eq, htext, hne]
    simp only [Bool.false_eq_true, if_false]
    cases hlast : p.names.getLast? with
    | none => rfl
    | some last =>
      obtain rfl := mem_of_descent_nil h last (List.mem_of_getLast? hlast)
      simp [foldlM_enter_of_stays h, Except.map]
  have hresult : fs.makeDirectories p = (fs, none) := by
    rw [makeDirectories, makeWithParents, if_neg (by simp [hne])]
    simp [makeDirectory, isDirectory, stat, hlocate]
  rw [hresult]
  refine ⟨(makingFault?_of_stays h htext).symm, fun _ => ?_, fun _ => rfl⟩
  rw [place_eq, h, List.append_nil]
  exact at?_origin fs p

section Parent

variable (h : p.Parent q name) (hp : p.IsStraight)
  (htext : p.textFault? = none) (hne : p.text.isEmpty = false)
  (hparents : p.parents = q :: q.parents) (ih : Makes fs q (fs.makeDirectories q))

include h hp htext hne hparents ih

/-- A name on the way is too long, and so the parent is not made either. -/
theorem makes_of_overlong (hmake : fs.makeDirectory p = .error .notFound)
    (hlong : fs.hurdle? (q.origin fs.cwd) q.names = some .nameTooLong) :
    Makes fs p (fs.makeDirectories p) := by
  have hqne : q.text.isEmpty = false := by
    rw [Bool.eq_false_iff]
    intro hempty
    simp [names_of_empty hempty, hurdle?] at hlong
  have hfault : (fs.makeDirectories q).2 = some .nameTooLong := by
    rw [ih.fault, makingFault?, hqne, h.textFault?_eq_none htext, hlong]
    simp
  have hgrows := makeDirectories_grows fs (h.isStraight hp)
  rw [makeDirectories_eq hne hparents, hmake]
  generalize fs.makeDirectories q = result at hfault hgrows
  obtain ⟨held, fault?⟩ := result
  obtain rfl : fault? = some .nameTooLong := hfault
  refine ⟨(makingFault?_of_hurdle h htext hne hlong (.inl rfl)).symm, by simp, fun _ => ?_⟩
  exact at?_of_grows_parent h hgrows

variable (htree : fs.IsTree)

include htree

/-- The parent is made first, which nothing keeps from being made. -/
theorem makes_of_missing (hmake : fs.makeDirectory p = .error .notFound)
    (hclear : fs.hurdle? (q.origin fs.cwd) q.names = none)
    (hmissing : fs.at? (p.place fs.cwd) = none) : Makes fs p (fs.makeDirectories p) := by
  have hfault : (fs.makeDirectories q).2 = none :=
    ih.fault.trans (makingFault?_of_settled h.settled (h.textFault?_eq_none htext) hclear)
  have hgrows := makeDirectories_grows fs (h.isStraight hp)
  have hthere := ih.done hfault
  have hlast := makeDirectory_of_held (hgrows.tree htree) h hp htext hne hgrows hthere hclear hmissing
  rw [makeDirectories_eq hne hparents, hmake]
  have hverdict : fs.makingFault? p = _ := makingFault?_of_clear h htext hne hclear
  generalize fs.makeDirectories q = result at hfault hlast hgrows
  obtain ⟨held, fault?⟩ := result
  obtain rfl : fault? = none := hfault
  obtain ⟨hnone, hmade⟩ := hlast
  rw [hmissing] at hverdict
  simp only at hnone hmade ⊢
  rw [hmade]
  by_cases hlong : nameLimit < name.utf8ByteSize
  · rw [if_pos hlong] at hverdict ⊢
    exact ⟨hverdict.symm, by simp, fun _ => hnone.trans hmissing.symm⟩
  · rw [if_neg hlong] at hverdict ⊢
    cases hhere : p.endsHere with
    | true =>
      simp only [hhere] at hverdict ⊢
      exact ⟨hverdict.symm, by simp, fun _ => hnone.trans hmissing.symm⟩
    | false =>
      simp only [hhere, Bool.false_eq_true, if_false] at hverdict ⊢
      refine ⟨hverdict.symm, fun _ => ?_, fun hne => absurd rfl hne⟩
      exact at?_put_self (by simp [hnone])

theorem makes_of_there
    (hwalk : q.names.foldlM fs.enter (q.origin fs.cwd) = .ok (q.place fs.cwd))
    (hclear : fs.hurdle? (q.origin fs.cwd) q.names = none) :
    Makes fs p (fs.makeDirectories p) := by
  have hmake := makeDirectory_of_there h hp htext hne hwalk
  have hdirectory := isDirectory_of_there h hp htext hne hwalk
  have hverdict : fs.makingFault? p = _ := makingFault?_of_clear h htext hne hclear
  by_cases hlong : nameLimit < name.utf8ByteSize
  · rw [if_pos hlong] at hmake hverdict
    exact makes_of_refused hne hmake (by simp) (by simp) hverdict
  · rw [if_neg hlong] at hmake hverdict
    cases hnode : fs.at? (p.place fs.cwd) with
    | none =>
      rw [hnode] at hmake hverdict
      cases hhere : p.endsHere with
      | true =>
        rw [hhere] at hmake
        exact makes_of_missing h hp htext hne hparents ih htree hmake hclear hnode
      | false =>
        simp only [hhere, Bool.false_eq_true, if_false] at hmake hverdict
        rw [makeDirectories_eq hne hparents, hmake]
        refine ⟨hverdict.symm, fun _ => ?_, fun hne => absurd rfl hne⟩
        exact at?_put_self (by simp [hnode])
    | some node =>
      rw [hnode] at hmake hverdict
      cases node with
      | directory =>
        rw [makeDirectories_eq hne hparents, hmake, hdirectory.mpr ⟨hlong, hnode⟩]
        exact ⟨hverdict.symm, fun _ => hnode, fun _ => rfl⟩
      | file content =>
        have hnot : fs.isDirectory p = false := by
          rw [← Bool.not_eq_true, hdirectory]
          simp [hnode]
        exact makes_of_refused hne hmake (by split <;> simp) (fun _ => hnot) hverdict

theorem makes_of_parent : Makes fs p (fs.makeDirectories p) := by
  have hrefused {fault : Fault}
      (hwalk : q.names.foldlM fs.enter (q.origin fs.cwd) = .error fault) :
      fs.makeDirectory p = .error fault := makeDirectory_of_refused h hp htext hne hwalk
  have hwalked := walked htree (h.isStraight hp) (at?_origin fs q)
  generalize hwalk : q.names.foldlM fs.enter (q.origin fs.cwd) = result at hwalked
  cases hwalked with
  | arrived there clear => exact makes_of_there h hp htext hne hparents ih htree hwalk clear
  | missed missing clear =>
    rcases clear with clear | hlong
    · refine makes_of_missing h hp htext hne hparents ih htree (hrefused hwalk) clear ?_
      rw [h.place_eq]
      exact htree.none_below missing [name]
    · exact makes_of_overlong h hp htext hne hparents ih (hrefused hwalk) hlong
  | tooLong hurdle =>
    exact makes_of_refused hne (hrefused hwalk) (by simp) (by simp)
      (makingFault?_of_hurdle h htext hne hurdle (.inl rfl))
  | blocked hurdle blocked =>
    refine makes_of_refused hne (hrefused hwalk) (by simp) (by simp)
      (makingFault?_of_hurdle h htext hne hurdle (.inr ?_))
    have hnone : fs.at? (p.place fs.cwd) = none := by
      by_contra hsome
      refine blocked (htree.directory_of_prefix (List.cons_ne_nil name []) ?_)
      rw [← place_eq, ← h.place_eq]
      exact Option.isSome_iff_ne_none.mpr hsome
    rw [isFile, hnone]

end Parent

theorem makes_of_parents (htree : fs.IsTree) (hp : p.IsStraight)
    (ih : ∀ q name, p.parents = q :: q.parents → p.Parent q name →
      Makes fs q (fs.makeDirectories q)) : Makes fs p (fs.makeDirectories p) := by
  by_cases hempty : p.text.isEmpty = true
  · exact makes_of_empty hempty
  rw [Bool.not_eq_true] at hempty
  cases htext : p.textFault? with
  | some fault => exact makes_of_text hempty htext
  | none =>
    rcases parents_cases p with hstays | ⟨q, name, hparents, h⟩
    · exact makes_of_stays hstays htext hempty
    · exact makes_of_parent h hp htext hempty hparents (ih q name hparents h) htree

/-- What comes of making directories: only the fault that is to be expected keeps them from being
made. -/
theorem makes (htree : fs.IsTree) (hp : p.IsStraight) : Makes fs p (fs.makeDirectories p) := by
  -- The parents of the parent are the other parents.
  induction hlist : p.parents generalizing p with
  | nil =>
    refine makes_of_parents htree hp fun q name hparents _ => ?_
    rw [hlist] at hparents
    cases hparents
  | cons first rest ih =>
    refine makes_of_parents htree hp fun q name hparents h => ?_
    rw [hlist] at hparents
    exact ih (h.isStraight hp) (List.cons.inj hparents).2.symm

/-- What stands in the way of a path, and what is at its place if it ends in a dot, decide whether it
can be made. -/
theorem makingFault?_congr {a b : Files} (hcwd : b.cwd = a.cwd)
    (hfile : ∀ l, l <+: p.place a.cwd → b.isFile l = a.isFile l)
    (hends : p.endsHere = true →
      (b.at? (p.place a.cwd)).isNone = (a.at? (p.place a.cwd)).isNone) :
    b.makingFault? p = a.makingFault? p := by
  have hhurdle : b.hurdle? (p.origin a.cwd) p.names = a.hurdle? (p.origin a.cwd) p.names :=
    hurdle?_congr hfile
  have hplace := hfile _ List.prefix_rfl
  unfold makingFault?
  rw [hcwd, hhurdle, hplace]
  cases hhere : p.endsHere with
  | true => rw [hends hhere]
  | false => rfl

end Make

end Files

end Provision
