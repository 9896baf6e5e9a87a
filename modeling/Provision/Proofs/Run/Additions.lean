import Provision.Plan
import Provision.Proofs.Files.Barred
import Provision.Proofs.Run.Ledger
import Provision.Proofs.Run.Payload

/-!
# What a run adds to the files

If nobody else touches the files, a run leaves all that is there as it is. It adds directories, the
empty markers of scripts that have just succeeded, and source files: of those that a run comes to at
one path the first one.
-/

namespace Provision

open Files

/-! ## Source files that a run comes to -/

/-- The source files that the work comes to, in order, until one of them cannot be written. -/
def Work.tried (setting : Setting) : List SourceFile → Work → List SourceFile
  | [], _ => []
  | entry :: rest, work =>
    entry :: match work.writeSource setting entry with
      | (wrote, none) => tried setting rest wrote
      | (_, some _) => []

/-- The source files that a visit comes to; none if it skips the unit or ends before that step. -/
def Turn.tried (setting : Setting) (turn : Turn) : List SourceFile :=
  match setting.criteria.judge turn.unit setting.snapshot setting.hostname with
  | .skip _ => []
  | .install forced =>
    match Work.runSteps setting [.repositories] (.begin turn.session turn.unit forced) with
    | (ready, none) =>
      if ready.session.interrupted then []
      else Work.tried setting turn.unit.sources (ready.enter .sources)
    | (_, some _) => []

def RunState.tried (setting : Setting) (strict : Bool) (state : RunState) : List SourceFile :=
  (tour setting strict state.due state.session).turns.flatMap (Turn.tried setting)

/-- What a run may have added by now, of what its trace says and what it has come to. -/
inductive Added (setting : Setting) (units : List Installable) (cwd : Location)
    (tried : List SourceFile) (trace : List Event) (l : Location) : Node → Prop
  | directory : Added setting units cwd tried trace l .directory
  | marker {unit : Installable} {phase : Phase} {front back : List Event} (declared : unit ∈ units)
      (place : (setting.markers.path unit.name phase).place cwd = l)
      (left : trace = front ++ .createdMarker (setting.markers.path unit.name phase) :: back)
      (earned : Earned setting unit phase front) :
      Added setting units cwd tried trace l (.file ByteArray.empty)
  | source {entry : SourceFile} (first : tried.find? (·.path.place cwd = l) = some entry) :
      Added setting units cwd tried trace l (.file entry.bytes)

theorem Added.mono {setting : Setting} {units : List Installable} {cwd l : Location}
    {tried more : List SourceFile} {trace later : List Event} {node : Node}
    (htried : tried <+: more) (htrace : trace <+: later)
    (h : Added setting units cwd tried trace l node) : Added setting units cwd more later l node := by
  obtain ⟨since, rfl⟩ := htrace
  obtain ⟨rest, rfl⟩ := htried
  cases h with
  | directory => exact .directory
  | @marker unit phase front back declared place left earned =>
    have hleft : trace ++ since =
        front ++ .createdMarker (setting.markers.path unit.name phase) :: (back ++ since) := by
      rw [left, List.append_assoc]
      rfl
    exact .marker declared place hleft earned
  | source first => exact .source (by rw [List.find?_append, first]; rfl)

/-! ## Writing -/

theorem MarkerStore.create_cases {store : MarkerStore} {files : Files} (htree : files.IsTree)
    (hroot : store.root.IsStraight) {unit : String} (hunit : '/' ∉ unit.toList) {phase : Phase}
    (hmissing : store.has files unit phase = false) :
    (∃ made, store.create files unit phase = (made, .ok (store.path unit phase)) ∧
      Grows (SourceEntry ((store.path unit phase).place files.cwd) ByteArray.empty) files made) ∨
    ∃ made failure, store.create files unit phase = (made, .error failure) ∧
      Grows (OnTheWay (store.root.place files.cwd)) files made := by
  have hname := isName_markName hunit phase
  have hgrows := makeDirectories_grows files hroot
  have hway : store.root.place files.cwd <+: (store.path unit phase).place files.cwd := by
    rw [path_eq, Path.place_join _ hname]
    exact List.prefix_append _ _
  have hcreated := store.created files unit phase
  generalize store.create files unit phase = result at hcreated ⊢
  cases hcreated with
  | done making writing =>
    rw [making] at hgrows
    exact .inl ⟨_, rfl, write_grows htree hroot hname hmissing
      (hgrows.mono fun _ _ => .mono hway) writing⟩
  | unwritten making | unmade making =>
    rw [making] at hgrows
    exact .inr ⟨_, _, rfl, hgrows⟩

/-- A source file that is missing is added, or it is barred from then on. -/
theorem putSource_cases_of_missing {work : Work} {entry : SourceFile} {dir : Path} {name : String}
    (htree : work.session.files.IsTree) (hdir : dir.IsStraight) (hname : Path.IsName name)
    (hpath : entry.path = dir.join name)
    (hmissing : work.session.files.exists? entry.path = false) :
    (∃ files, work.putSource entry =
        ({ work with session := { work.session with files }.note (.wroteSource entry.path) }, none) ∧
      Grows (SourceEntry (entry.path.place work.session.files.cwd) entry.bytes)
        work.session.files files ∧
      ¬ work.session.files.Barred entry.path ∧ files.exists? entry.path = true) ∨
    ∃ files stop, work.putSource entry =
        ({ work with session := { work.session with files } }, some stop) ∧
      Grows (OnTheWay (entry.path.place work.session.files.cwd)) work.session.files files ∧
      files.Barred entry.path := by
  have hgrows := makeParent_grows work.session.files (Path.isStraight_join hdir hname)
  obtain ⟨q, hq, -, hplace, hmake⟩ := exists_makeParent_join hdir hname
  have hmakes := makes htree hq
  rw [← hmake] at hmakes
  have hparent := makeDirectories_grows work.session.files hq
  rw [← hmake, hplace] at hparent
  rw [hpath] at hmissing ⊢
  unfold Work.putSource
  rw [hpath]
  generalize hresult : work.session.files.makeParent (dir.join name) = result at *
  obtain ⟨made, fault?⟩ := result
  cases fault? with
  | some fault =>
    refine .inr ⟨made, _, rfl, hgrows, ?_⟩
    have hbarred : work.session.files.Barred (dir.join name) := .inr (by simp [hresult])
    exact hbarred.of_grows hgrows htree hdir hname
  | none =>
    have hthere := hmakes.done rfl
    rw [hplace, ← hgrows.cwd] at hthere
    simp only
    split
    · next written hwrite =>
      have hadded := write_grows htree hdir hname hmissing hgrows hwrite
      obtain ⟨hspell, -, hfree, rfl⟩ := write_join_eq_ok hdir hname hwrite
      refine .inl ⟨_, rfl, hadded, ?_, ?_⟩
      · rintro (hnot | hnot)
        · exact hnot hspell
        · simp [hresult] at hnot
      · rw [exists?_join_iff (hadded.tree htree) hdir hname]
        refine ⟨hspell, ?_⟩
        rw [cwd_put, at?_put_self hfree]
        rfl
    · next fault hwrite =>
      -- The directory is there and the file is not, so it is the text that cannot be written.
      refine .inr ⟨made, _, rfl, hgrows, .inl ?_⟩
      intro hspell
      have hnone : made.at? (dir.place made.cwd ++ [name]) = none := by
        rw [hgrows.cwd, hparent.at?_of_not fun _ hway => Path.not_snoc_prefix _ _ hway.1]
        by_contra hsome
        have hexists := (exists?_join_iff htree hdir hname).mpr
          ⟨hspell, Option.isSome_iff_ne_none.mpr hsome⟩
        rw [hmissing] at hexists
        cases hexists
      exact not_spellable_of_write (hgrows.tree htree) hdir hname hthere hnone hwrite hspell

/-! ## The invariant -/

/-- What the account of the files relies on: straight directories, units of a document, and
collaborators that touch no file. -/
structure Undisturbed (setting : Setting) (sourcesDir : Path) (units : List Installable) : Prop where
  root : setting.markers.root.IsStraight
  sources : sourcesDir.IsStraight
  units : ∀ unit ∈ units, unit.declared.WellFormed sourcesDir
  untouched : ∀ calls call files,
    (setting.collaborators.respond calls call files).files = files

/-- The source file of a real run is there, or it can never be written. -/
def Attempted (setting : Setting) (sourcesDir : Path) (files : Files) (entry : SourceFile) : Prop :=
  ∃ file, Path.IsName file ∧ entry.path = sourcesDir.join file ∧
    (setting.dryRun = false → files.exists? entry.path = true ∨ files.Barred entry.path)

theorem Attempted.of_grows {setting : Setting} {sourcesDir : Path} {entry : SourceFile}
    {fresh : Location → Node → Prop} {before after : Files}
    (h : Attempted setting sourcesDir before entry) (hgrows : Grows fresh before after)
    (htree : before.IsTree) (hsources : sourcesDir.IsStraight) :
    Attempted setting sourcesDir after entry := by
  obtain ⟨file, hfile, hpath, hsettled⟩ := h
  refine ⟨file, hfile, hpath, fun hreal => ?_⟩
  rw [hpath] at hsettled ⊢
  rcases hsettled hreal with hexists | hbarred
  · exact .inl (exists?_of_grows hgrows htree hsources hfile hexists)
  · exact .inr (hbarred.of_grows hgrows htree hsources hfile)

/-- What a run has added so far, after it has come to these source files. -/
structure Additions (setting : Setting) (sourcesDir : Path) (units : List Installable)
    (start : Files) (tried : List SourceFile) (session : Session) : Prop where
  tree : session.files.IsTree
  grows : Grows (Added setting units start.cwd tried session.trace) start session.files
  tried : ∀ entry ∈ tried, Attempted setting sourcesDir session.files entry

section

variable {setting : Setting} {sourcesDir : Path} {units : List Installable} {start : Files}
  {tried : List SourceFile} {session after : Session} {entry : SourceFile}

namespace Additions

theorem opened (htree : start.IsTree) (interrupted : Bool) :
    Additions setting sourcesDir units start [] { files := start, interrupted } :=
  ⟨htree, .refl _ start, by simp⟩

theorem of_files_eq (h : Additions setting sourcesDir units start tried session)
    (hfiles : after.files = session.files) (htrace : session.trace <+: after.trace) :
    Additions setting sourcesDir units start tried after where
  tree := hfiles ▸ h.tree
  grows := hfiles ▸ h.grows.mono fun _ _ => .mono List.prefix_rfl htrace
  tried := hfiles ▸ h.tried

theorem add (h : Additions setting sourcesDir units start tried session)
    (hsources : sourcesDir.IsStraight) (htrace : session.trace <+: after.trace)
    (more : List SourceFile)
    (hgrows : Grows (Added setting units start.cwd (tried ++ more) after.trace) session.files
      after.files)
    (hmore : ∀ entry ∈ more, Attempted setting sourcesDir after.files entry) :
    Additions setting sourcesDir units start (tried ++ more) after where
  tree := hgrows.tree h.tree
  grows := (h.grows.mono fun _ _ => .mono (List.prefix_append _ _) htrace).trans hgrows
  tried := by
    refine List.forall_mem_append.mpr ⟨fun entry hentry => ?_, hmore⟩
    exact (h.tried entry hentry).of_grows hgrows h.tree hsources

/-! ## Source files -/

theorem find?_of_written (h : Additions setting sourcesDir units start tried session)
    (hreal : setting.dryRun = false) {file : String} (hfile : Path.IsName file)
    (hpath : entry.path = sourcesDir.join file)
    (hmissing : session.files.exists? entry.path = false)
    (hfree : ¬ session.files.Barred entry.path) :
    (tried ++ [entry]).find? (·.path.place start.cwd = entry.path.place start.cwd) =
      some entry := by
  -- Whatever has been tried at this place before would be there by now, or barred for good.
  have hnone : tried.find? (·.path.place start.cwd = entry.path.place start.cwd) = none := by
    rw [List.find?_eq_none]
    intro other hother hplace
    obtain ⟨name, hname, hotherPath, hsettled⟩ := h.tried other hother
    rw [decide_eq_true_iff, hpath, hotherPath, Path.place_join _ hname,
      Path.place_join _ hfile] at hplace
    obtain rfl : name = file := by simpa using hplace
    rw [hotherPath, ← hpath] at hsettled
    rcases hsettled hreal with hexists | hbarred
    · rw [hmissing] at hexists
      cases hexists
    · exact hfree hbarred
  rw [List.find?_append, hnone]
  simp

theorem writeSource {work : Work} (h : Additions setting sourcesDir units start tried work.session)
    (hsources : sourcesDir.IsStraight) {file : String} (hfile : Path.IsName file)
    (hpath : entry.path = sourcesDir.join file) :
    Additions setting sourcesDir units start (tried ++ [entry])
      (work.writeSource setting entry).1.session := by
  have hidle (hattempted : Attempted setting sourcesDir work.session.files entry) :
      Additions setting sourcesDir units start (tried ++ [entry]) work.session := by
    refine h.add hsources List.prefix_rfl [entry] (.refl _ _) fun other hother => ?_
    rwa [List.mem_singleton.mp hother]
  unfold Work.writeSource
  split
  · next hexists => exact hidle ⟨file, hfile, hpath, fun _ => .inl hexists⟩
  · next hmissing =>
    rw [Bool.not_eq_true] at hmissing
    unfold Work.really
    cases hdry : setting.dryRun with
    | true => exact hidle ⟨file, hfile, hpath, fun hreal => by simp [hdry] at hreal⟩
    | false =>
      rw [if_neg (by simp)]
      rcases putSource_cases_of_missing h.tree hsources hfile hpath hmissing with
        ⟨files, hput, hgrows, hfree, hexists⟩ | ⟨files, stop, hput, hgrows, hbarred⟩ <;> rw [hput]
      · have hfirst := h.find?_of_written hdry hfile hpath hmissing hfree
        refine h.add hsources (List.prefix_append _ _) [entry] ?_ ?_
        · refine hgrows.mono fun l node hnode => ?_
          rw [h.grows.cwd] at hnode
          rcases hnode with ⟨-, rfl⟩ | ⟨rfl, rfl⟩
          · exact .directory
          · exact .source hfirst
        · intro other hother
          rw [List.mem_singleton.mp hother]
          exact ⟨file, hfile, hpath, fun _ => .inl hexists⟩
      · let failed : Session := { work.session with files }
        have htrace : work.session.trace <+: failed.trace := List.prefix_rfl
        have hfailed : Additions setting sourcesDir units start (tried ++ [entry]) failed := by
          refine h.add hsources htrace [entry] ?_ ?_
          · refine hgrows.mono fun l node hnode => ?_
            obtain rfl := hnode.2
            exact .directory
          · intro other hother
            rw [List.mem_singleton.mp hother]
            exact ⟨file, hfile, hpath, fun _ => .inr hbarred⟩
        exact hfailed

theorem writeSources {entries : List SourceFile} {work : Work}
    (h : Additions setting sourcesDir units start tried work.session)
    (hsources : sourcesDir.IsStraight)
    (hentries : ∀ entry ∈ entries, ∃ file, Path.IsName file ∧ entry.path = sourcesDir.join file) :
    Additions setting sourcesDir units start (tried ++ work.tried setting entries)
      (Work.runTasks setting (entries.map .writeSource) work).1.session := by
  -- What has been tried grows along the entries, so the induction is for any such list.
  induction entries generalizing work tried with
  | nil => simpa [Work.tried, Work.runTasks] using h
  | cons entry rest ih =>
    rw [List.forall_mem_cons] at hentries
    obtain ⟨⟨file, hfile, hpath⟩, hrest⟩ := hentries
    have hwrote := h.writeSource hsources hfile hpath
    simp only [List.map_cons, Work.runTasks, Task.run, Work.tried]
    cases hresult : work.writeSource setting entry with
    | mk wrote stop? =>
      rw [hresult] at hwrote
      cases stop? with
      | some stop => exact hwrote
      | none =>
        have hall := ih hwrote hrest
        simpa using hall

/-! ## Markers -/

theorem leaveMarker {work : Work} {unit : Installable} {phase : Phase}
    (h : Additions setting sourcesDir units start tried work.session)
    (hundisturbed : Undisturbed setting sourcesDir units) (hunit : unit ∈ units)
    (hname : work.unit.name = unit.name)
    (hmissing : setting.markers.has work.session.files unit.name phase = false)
    (hearned : Earned setting unit phase work.session.trace) :
    Additions setting sourcesDir units start tried (work.leaveMarker setting phase).1.session := by
  have hslash : '/' ∉ unit.name.toList := (hundisturbed.units unit hunit).no_slash
  unfold Work.leaveMarker
  rw [hname]
  rcases MarkerStore.create_cases h.tree hundisturbed.root hslash hmissing with
    ⟨made, hcreate, hgrows⟩ | ⟨made, failure, hcreate, hgrows⟩ <;> rw [hcreate]
  · let left : Session := { work.session with files := made }.note
      (.createdMarker (setting.markers.path unit.name phase))
    have htrace : left.trace = work.session.trace ++
        [.createdMarker (setting.markers.path unit.name phase)] := rfl
    have hadded : Additions setting sourcesDir units start (tried ++ []) left := by
      refine h.add hundisturbed.sources (List.prefix_append _ _) [] ?_ (by simp)
      refine hgrows.mono fun l node hnode => ?_
      rw [h.grows.cwd] at hnode
      rcases hnode with ⟨-, rfl⟩ | ⟨rfl, rfl⟩
      · exact .directory
      · exact .marker hunit rfl htrace hearned
    rwa [List.append_nil] at hadded
  · let failed : Session := { work.session with files := made }
    have htrace : work.session.trace <+: failed.trace := List.prefix_rfl
    have hfailed : Additions setting sourcesDir units start (tried ++ []) failed := by
      refine h.add hundisturbed.sources htrace [] ?_ (by simp)
      refine hgrows.mono fun l node hnode => ?_
      obtain rfl := hnode.2
      exact .directory
    rwa [List.append_nil] at hfailed

end Additions

/-! ## Visits -/

theorem Move.files_eq {step : Step} {work next : Work}
    (huntouched : ∀ calls call files,
      (setting.collaborators.respond calls call files).files = files)
    (hsources : step ≠ .sources) (hscript : ∀ phase, step ≠ .ofPhase phase)
    (h : Move setting work step next) : next.session.files = work.session.files := by
  cases h with
  | call => exact huntouched _ _ _
  | source => exact absurd rfl hsources
  | marker => exact absurd rfl (hscript _)
  | record | needRefresh | hold => rfl

/-- A unit is at work, in this step, and the run has added so much. -/
structure Adding (setting : Setting) (sourcesDir : Path) (units : List Installable) (start : Files)
    (tried : List SourceFile) (unit : Installable) (step? : Option Step) (work : Work) : Prop where
  additions : Additions setting sourcesDir units start tried work.session
  scene : scene work.session.trace = ⟨some unit.name, step?⟩
  declared : work.unit.declared = unit.declared

namespace Adding

variable {unit : Installable} {step : Step} {step? : Option Step} {work next : Work}

theorem enter (h : Adding setting sourcesDir units start tried unit step? work) (step : Step) :
    Adding setting sourcesDir units start tried unit (some step) (work.enter step) := by
  refine ⟨h.additions.of_files_eq rfl (List.prefix_append _ _), ?_, h.declared⟩
  rw [scene_enter, h.scene]

theorem of_moves (h : Adding setting sourcesDir units start tried unit (some step) work)
    (hmoves : Moves setting step work next)
    (hadditions : Additions setting sourcesDir units start tried next.session) :
    Adding setting sourcesDir units start tried unit (some step) next :=
  ⟨hadditions, hmoves.sameScene.here.trans h.scene, hmoves.kept.declared.trans h.declared⟩

theorem runScript {phase : Phase} (hundisturbed : Undisturbed setting sourcesDir units)
    (hunit : unit ∈ units)
    (hselected : ∃ forced, setting.criteria.judge unit setting.snapshot setting.hostname =
      .install forced)
    (h : Adding setting sourcesDir units start tried unit (some (.ofPhase phase)) work) :
    Additions setting sourcesDir units start tried (work.runScript setting phase).1.session := by
  have hsame {α : Type} (f : Installable → α) (hf : ∀ unit, f unit.declared = f unit) :
      f work.unit = f unit := Installable.eq_of_declared_eq h.declared f hf
  have hname : work.unit.name = unit.name := hsame _ fun _ => rfl
  have honce : work.unit.isOnce phase = unit.isOnce phase := hsame (·.isOnce phase) fun _ => rfl
  have hscript : work.unit.script? phase = unit.script? phase :=
    congrFun (hsame _ Installable.script?_declared) phase
  unfold Work.runScript
  rw [hscript, honce, hname]
  cases htext : unit.script? phase with
  | none => exact h.additions
  | some text =>
    simp only
    split
    · exact h.additions
    · next hrun =>
      unfold Work.really
      cases hdry : setting.dryRun with
      | true => cases unit.isOnce phase <;> exact h.additions
      | false =>
        have hcalled : Additions setting sourcesDir units start tried
            (work.called setting (.runScript text)).session :=
          h.additions.of_files_eq (hundisturbed.untouched _ _ _) (List.prefix_append _ _)
        simp only [Bool.false_eq_true, if_false]
        rcases Goes.tell_cases setting (.ofPhase phase) (.runScript text) work with
          ⟨answer, htell, earlier, shown, htrace⟩ | ⟨failure, htell⟩
        · rw [htell]
          simp only
          cases hrunsOnce : unit.isOnce phase with
          | false => exact hcalled
          | true =>
            have hmissing : setting.markers.has (work.called setting (.runScript text)).session.files
                unit.name phase = false := by
              rw [hrunsOnce] at hrun
              rw [show (work.called setting (.runScript text)).session.files = work.session.files from
                hundisturbed.untouched _ _ _]
              simpa using hrun
            have hearned : Earned setting unit phase
                (work.called setting (.runScript text)).session.trace := by
              obtain ⟨rfl, -⟩ := List.append_inj' htrace rfl
              exact ⟨hdry, hrunsOnce, hselected, text, answer, shown, _, htext, h.scene, htrace⟩
            have hleft := hcalled.leaveMarker hundisturbed hunit hname hmissing hearned
            simp only [if_true]
            generalize (work.called setting (.runScript text)).leaveMarker setting phase = left at *
            obtain ⟨left, stop?⟩ := left
            cases stop? <;> exact hleft
        · rw [htell]
          exact hcalled

theorem runTasks (hundisturbed : Undisturbed setting sourcesDir units) (hunit : unit ∈ units)
    (hselected : ∃ forced, setting.criteria.judge unit setting.snapshot setting.hostname =
      .install forced) (hstep : step ≠ .sources)
    (h : Adding setting sourcesDir units start tried unit (some step) work) :
    Adding setting sourcesDir units start tried unit (some step)
      (Work.runTasks setting (step.tasks work.unit) work).1 := by
  have hmoves := moves_tasks setting step work
  refine h.of_moves hmoves ?_
  by_cases hscript : ∃ phase, step = .ofPhase phase
  · obtain ⟨phase, rfl⟩ := hscript
    have htasks : (Step.ofPhase phase).tasks work.unit = [.runScript phase] := by
      cases phase <;> rfl
    rw [htasks, runTasks_singleton]
    exact h.runScript hundisturbed hunit hselected
  · have hfiles := hmoves.preserves (P := fun next => next.session.files = work.session.files)
      (fun _ _ hsame hmove => (hmove.files_eq hundisturbed.untouched hstep
        fun phase heq => hscript ⟨phase, heq⟩).trans hsame) rfl
    exact h.additions.of_files_eq hfiles hmoves.kept.trace

theorem runSteps (hundisturbed : Undisturbed setting sourcesDir units) (hunit : unit ∈ units)
    (hselected : ∃ forced, setting.criteria.judge unit setting.snapshot setting.hostname =
      .install forced) {steps : List Step} (hsteps : .sources ∉ steps)
    (h : Adding setting sourcesDir units start tried unit step? work) :
    ∃ last?, Adding setting sourcesDir units start tried unit last?
      (Work.runSteps setting steps work).1 := by
  refine runSteps_induction_of_tasks
    (Q := fun work => ∃ step?, Adding setting sourcesDir units start tried unit step? work)
    (P := fun step => Adding setting sourcesDir units start tried unit (some step))
    ?_ ?_ (fun step _ hwork => ⟨some step, hwork⟩) ⟨step?, h⟩
  · rintro step work ⟨step?, hwork⟩
    exact hwork.enter step
  · intro step hstep work hwork
    exact hwork.runTasks hundisturbed hunit hselected (ne_of_mem_of_not_mem hstep hsteps)

theorem runSteps_sources (hundisturbed : Undisturbed setting sourcesDir units) (hunit : unit ∈ units)
    (hselected : ∃ forced, setting.criteria.judge unit setting.snapshot setting.hostname =
      .install forced) {rest : List Step} (hrest : .sources ∉ rest)
    (hfree : work.session.interrupted = false)
    (h : Adding setting sourcesDir units start tried unit step? work) :
    Additions setting sourcesDir units start
      (tried ++ Work.tried setting unit.sources (work.enter .sources))
      (Work.runSteps setting (.sources :: rest) work).1.session := by
  have hentered := h.enter .sources
  have hsources : work.unit.sources = unit.sources :=
    Installable.eq_of_declared_eq h.declared _ fun _ => rfl
  have htasks : Step.tasks work.unit .sources = unit.sources.map .writeSource := by
    rw [← hsources]
    rfl
  have hentries : ∀ entry ∈ unit.sources, ∃ file, Path.IsName file ∧
      entry.path = sourcesDir.join file := (hundisturbed.units unit hunit).sources
  have hwrote := hentered.additions.writeSources hundisturbed.sources hentries
  have hmoves := moves_tasks setting .sources (work.enter .sources)
  have hsame : (work.enter .sources).unit = work.unit := rfl
  rw [hsame, htasks] at hmoves
  rw [runSteps_cons_of_free hfree, htasks]
  split
  · next wrote hran =>
    rw [hran] at hwrote hmoves
    have hafter : Adding setting sourcesDir units start _ unit (some .sources) wrote :=
      ⟨hwrote, hmoves.sameScene.here.trans hentered.scene,
        hmoves.kept.declared.trans hentered.declared⟩
    obtain ⟨last?, hfinal⟩ := hafter.runSteps hundisturbed hunit hselected hrest
    exact hfinal.additions
  · next wrote stop hran =>
    rw [hran] at hwrote
    exact hwrote

end Adding

theorem Turn.tried_of_interrupted {turn : Turn} (h : turn.session.interrupted = true) :
    turn.tried setting = [] := by
  unfold Turn.tried
  split
  · rfl
  · next forced hdecided =>
    have hstop : Work.runSteps setting [.repositories] (.begin turn.session turn.unit forced) =
        (.begin turn.session turn.unit forced, some (.fatal .interrupted)) := by
      rw [Work.runSteps]
      exact if_pos h
    simp only [hstop]

theorem Additions.visit {unit : Installable} (hundisturbed : Undisturbed setting sourcesDir units)
    (hunit : unit ∈ units) (h : Additions setting sourcesDir units start tried session) :
    Additions setting sourcesDir units start (tried ++ Turn.tried setting ⟨unit, session⟩)
      (setting.visit session unit).session := by
  have hbegan : Additions setting sourcesDir units start tried (session.note (.began unit.name)) :=
    h.of_files_eq rfl (List.prefix_append _ _)
  have hvisited := visited setting session unit
  generalize setting.visit session unit = visit at hvisited ⊢
  cases hvisited with
  | interrupted arrived => rwa [Turn.tried_of_interrupted arrived, List.append_nil]
  | skipped free decided =>
    simp only [Turn.tried, decided]
    rwa [List.append_nil]
  | @worked forced final stop? free decided ran =>
    have hselected : ∃ forced, setting.criteria.judge unit setting.snapshot setting.hostname =
        .install forced := ⟨forced, decided⟩
    have hbegin : Adding setting sourcesDir units start tried unit none
        (.begin session unit forced) := ⟨hbegan, scene_begin session unit forced, rfl⟩
    have hfront : .sources ∉ [Step.repositories] := by decide
    obtain ⟨last?, hready⟩ := hbegin.runSteps hundisturbed hunit hselected hfront
    -- Only the second step writes source files, so the visit is taken apart around it.
    have hall : Step.all = [.repositories] ++ .sources ::
      [.refreshIndex, .preScript, .retrieve, .install, .postScript] := rfl
    rw [hall, runSteps_append] at ran
    cases hfirst : Work.runSteps setting [.repositories] (.begin session unit forced) with
    | mk ready early? =>
      rw [hfirst] at hready ran
      simp only [Turn.tried, decided, hfirst]
      cases early? with
      | some stop =>
        obtain ⟨rfl, -⟩ := Prod.mk.inj ran
        rw [List.append_nil]
        exact hready.additions
      | none =>
        by_cases harrived : ready.session.interrupted = true
        · simp only [Work.runSteps, if_pos harrived] at ran
          obtain ⟨rfl, -⟩ := Prod.mk.inj ran
          simp only [if_pos harrived, List.append_nil]
          exact hready.additions
        · have hback : .sources ∉
              [Step.refreshIndex, .preScript, .retrieve, .install, .postScript] := by decide
          have hfinal := hready.runSteps_sources hundisturbed hunit hselected hback
            (by simpa using harrived)
          simp only at ran
          rw [ran] at hfinal
          simp only [if_neg harrived]
          exact hfinal

theorem additions_of_tour {strict : Bool} {due : List Installable}
    (hundisturbed : Undisturbed setting sourcesDir units) (hdue : ∀ unit ∈ due, unit ∈ units)
    (h : Additions setting sourcesDir units start tried session) :
    Additions setting sourcesDir units start
      (tried ++ (tour setting strict due session).turns.flatMap (Turn.tried setting))
      (tour setting strict due session).session := by
  induction due generalizing tried session with
  | nil => simpa [tour] using h
  | cons unit rest ih =>
    have hvisit := h.visit hundisturbed (hdue unit List.mem_cons_self)
    have hreport (result : UnitResult) : Additions setting sourcesDir units start
        (tried ++ Turn.tried setting ⟨unit, session⟩)
        ((setting.visit session unit).session.note (.reported result)) :=
      hvisit.of_files_eq rfl (List.prefix_append _ _)
    have hrest : ∀ other ∈ rest, other ∈ units :=
      fun other hother => hdue other (List.mem_cons_of_mem unit hother)
    simp only [tour]
    split
    · simpa using hvisit
    · split
      · simpa using hreport _
      · simpa [Tour.cons] using ih hrest (hreport _)

theorem mem_of_tried {turn : Turn} (h : entry ∈ turn.tried setting) :
    entry ∈ turn.unit.sources ∧ ∃ forced,
      setting.criteria.judge turn.unit setting.snapshot setting.hostname = .install forced := by
  have hsub {entries : List SourceFile} {work : Work} (hmem : entry ∈ work.tried setting entries) :
      entry ∈ entries := by
    induction entries generalizing work with
    | nil => exact hmem
    | cons first rest ih =>
      rw [Work.tried, List.mem_cons] at hmem
      rcases hmem with rfl | hmem
      · exact List.mem_cons_self
      · split at hmem
        · exact List.mem_cons_of_mem _ (ih hmem)
        · cases hmem
  unfold Turn.tried at h
  split at h
  · cases h
  · next forced hdecided =>
    split at h
    · split at h
      · cases h
      · exact ⟨hsub h, forced, hdecided⟩
    · cases h

end

/-! ## Runs -/

/-- What a run does to the files. -/
structure OnlyAdds (setting : Setting) (strict : Bool) (before after : RunState) : Prop where
  kept : ∀ l node, before.session.files.at? l = some node → after.session.files.at? l = some node
  /-- A new file is the empty marker of a script that has succeeded, or the first source file that
  the run has come to at its path. -/
  added : ∀ l content, before.session.files.at? l = none →
    after.session.files.at? l = some (.file content) →
    (content = ByteArray.empty ∧ ∃ entry ∈ before.catalog.entries, ∃ phase front back,
      l = (setting.markers.path entry.unit.name phase).place before.session.files.cwd ∧
      after.session.trace =
        front ++ .createdMarker (setting.markers.path entry.unit.name phase) :: back ∧
      Earned setting entry.unit phase front) ∨
    ∃ source, content = source.bytes ∧
      (before.tried setting strict).find? (·.path.place before.session.files.cwd = l) =
        some source ∧
      ∃ entry ∈ before.catalog.entries, source ∈ entry.unit.sources ∧
        ∃ row ∈ plan before.catalog setting.criteria setting.snapshot setting.hostname,
          row.line = entry.line ∧ row.name = entry.unit.name ∧
          ∃ forced, row.decision = .install forced

/-- A run adds to the files and changes none, in directories without parent steps. -/
theorem onlyAdds_of_run {sourcesDir : Path} {catalog : Catalog} (h : catalog.Reached sourcesDir)
    {setting : Setting} (hroot : setting.markers.root.IsStraight) (hsources : sourcesDir.IsStraight)
    (huntouched : ∀ calls call files,
      (setting.collaborators.respond calls call files).files = files)
    {files : Files} (htree : files.IsTree) (strict : Bool) (progress : Progress)
    (interrupted : Bool) :
    OnlyAdds setting strict { progress, catalog, session := { files, interrupted } }
      (RunState.run setting strict
        { progress, catalog, session := { files, interrupted } }).1 := by
  let state : RunState := { progress, catalog, session := { files, interrupted } }
  have hran := RunState.run_ledBy setting strict state h.oneBucket
  have hunits : ∀ unit ∈ state.due, unit ∈ catalog.entries.map Entry.unit :=
    fun unit hunit => List.mem_map.mpr (RunState.exists_entry_of_due hunit)
  have hundisturbed : Undisturbed setting sourcesDir (catalog.entries.map Entry.unit) :=
    ⟨hroot, hsources, List.forall_mem_map.mpr h.wellFormed, huntouched⟩
  have hadditions : Additions setting sourcesDir (catalog.entries.map Entry.unit) files
      (state.tried setting strict) (RunState.run setting strict state).1.session := by
    rw [hran.session]
    exact additions_of_tour hundisturbed hunits (.opened htree interrupted)
  refine ⟨fun l node hnode => ?_, fun l content hnone hcontent => ?_⟩
  · rcases hadditions.grows.same l with hsame | ⟨hfree, -⟩
    · exact hsame.trans hnode
    · rw [hnode] at hfree
      cases hfree
  · rcases hadditions.grows.same l with hsame | ⟨-, node, hnode, hadded⟩
    · rw [hsame, hnone] at hcontent
      cases hcontent
    obtain rfl : node = .file content := Option.some.inj (hnode.symm.trans hcontent)
    cases hadded with
    | @marker unit phase front back declared place left earned =>
      obtain ⟨entry, hentry, rfl⟩ := List.mem_map.mp declared
      exact .inl ⟨rfl, entry, hentry, phase, front, back, place.symm, left, earned⟩
    | @source source first =>
      obtain ⟨turn, hturn, hmem⟩ := List.mem_flatMap.mp (List.mem_of_find?_eq_some first)
      obtain ⟨hdeclared, forced, hdecided⟩ := mem_of_tried hmem
      obtain ⟨entry, hentry, hunit⟩ := RunState.exists_entry_of_due (unit_mem_of_mem_turns hturn)
      have hplanned : entry ∈ catalog.runOrder :=
        (Catalog.runOrder_perm h.oneBucket).mem_iff.mpr hentry
      rw [← hunit] at hdeclared hdecided
      exact .inr ⟨source, rfl, first, entry, hentry, hdeclared, _,
        List.mem_map_of_mem hplanned, rfl, rfl, forced, hdecided⟩

/-- A host whose tools do nothing and touch no file. -/
def Setting.idle : Setting where
  collaborators := ⟨fun _ _ files => { result := .ok "", files }⟩
  hostname := "host"

/-- The catalog of a document with one source file, which a directory of sources holds. -/
def Catalog.ofSource (sourcesDir : Path) : Catalog :=
  ⟨[⟨1, { name := "a", sources := [⟨sourcesDir.join "x.list", "deb http://x"⟩] }⟩]⟩

def sourceText : List Char := "a:\n  source: x.list deb http://x\n".toList

theorem onlyAdds_of_run_of_source :
    (Catalog.ofSource ⟨"sources"⟩).Reached ⟨"sources"⟩ ∧
    Setting.idle.markers.root.IsStraight ∧ Path.IsStraight ⟨"sources"⟩ ∧
    (∀ calls call files, (Setting.idle.collaborators.respond calls call files).files = files) ∧
    IsTree {} ∧
    OnlyAdds .idle false
      { progress := {}, catalog := .ofSource ⟨"sources"⟩
        session := { files := {}, interrupted := false } }
      (RunState.run .idle false { progress := {}, catalog := .ofSource ⟨"sources"⟩
                                  session := { files := {}, interrupted := false } }).1 := by
  have hparse : Document.parse ⟨"sources"⟩ sourceText = .ok (.ofSource ⟨"sources"⟩) := by
    decide +kernel
  have hreached := Catalog.Reached.parsed _ hparse
  have hroot : Setting.idle.markers.root.IsStraight := by
    unfold Path.IsStraight
    decide +kernel
  have hsources : Path.IsStraight ⟨"sources"⟩ := by
    unfold Path.IsStraight
    decide +kernel
  have hidle : ∀ calls call files,
      (Setting.idle.collaborators.respond calls call files).files = files := fun _ _ _ => rfl
  have htree : IsTree {} := isTree_of_no_nodes _
  exact ⟨hreached, hroot, hsources, hidle, htree,
    onlyAdds_of_run hreached hroot hsources hidle htree _ _ _⟩

/-- A directory with a source file of the same name, which a parent step leads to. -/
def Files.withOld : Files where
  nodes := [(["home", "old"], .directory), (["home", "old", "x.list"], .file "mine\n".toUTF8)]

/-- A parent step hides a file until the directory before the step is made. -/
theorem run_overwrites_behind_parent_step :
    Document.parse ⟨"new/../old"⟩ sourceText = .ok (.ofSource ⟨"new/../old"⟩) ∧
    (∀ calls call files, (Setting.idle.collaborators.respond calls call files).files = files) ∧
    Files.withOld.at? ["home", "old", "x.list"] = some (.file "mine\n".toUTF8) ∧
    (RunState.run .idle false
      { catalog := .ofSource ⟨"new/../old"⟩
        session := { files := .withOld } }).1.session.files.at? ["home", "old", "x.list"] =
      some (.file "deb http://x\n".toUTF8) :=
  ⟨by decide +kernel, fun _ _ _ => rfl, by decide +kernel, by decide +kernel⟩

end Provision
