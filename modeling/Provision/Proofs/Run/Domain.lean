import Provision.Proofs.Document.WellFormed
import Provision.Proofs.Files.Agree
import Provision.Proofs.Run.Alike
import Provision.Proofs.Run.Ledger

/-!
# The domain of a unit

All units write into the same two directories, but each has places of its own there: its markers and
its source files. What other units do does not show at these places, and what the unit does depends
on nothing else.
-/

namespace Provision

open Files

/-- Two directories given by straight paths, neither of them the other one or in it. -/
structure Separate (markers : MarkerStore) (sourcesDir : Path) (cwd : Location) : Prop where
  root : markers.root.IsStraight
  sources : sourcesDir.IsStraight
  root_out : ¬ markers.root.place cwd <+: sourcesDir.place cwd
  sources_out : ¬ sourcesDir.place cwd <+: markers.root.place cwd

/-- The location is one of the two directories or holds one of them. -/
def OnTheirWay (markers : MarkerStore) (sourcesDir : Path) (cwd l : Location) : Prop :=
  l <+: markers.root.place cwd ∨ l <+: sourcesDir.place cwd

/-- The locations at which a unit looks. -/
inductive Installable.Owns (markers : MarkerStore) (cwd : Location) (unit : Installable) :
    Location → Prop
  | marker (phase : Phase) : Owns markers cwd unit (markers.place cwd unit.name phase)
  | source {entry : SourceFile} (declared : entry ∈ unit.sources) :
      Owns markers cwd unit (entry.path.place cwd)
  /-- A path that ends in a dot leads to a directory only if it is there already. -/
  | root (here : markers.root.endsHere = true) : Owns markers cwd unit (markers.root.place cwd)

/-- Files that are the same for the unit. -/
abbrev SameFor (markers : MarkerStore) (sourcesDir : Path) (cwd : Location) (unit : Installable) :
    Files → Files → Prop :=
  AgreeOn cwd (OnTheirWay markers sourcesDir cwd) (unit.Owns markers cwd)

/-- Units that have neither a name nor a source file in common. -/
structure Installable.Apart (unit other : Installable) : Prop where
  name : unit.name ≠ other.name
  sources : ∀ entry ∈ unit.sources, ∀ second ∈ other.sources, entry.path ≠ second.path

/-- Collaborators that leave a directory and what is in it alone, and put no file in its way. -/
structure Collaborators.Avoid (collaborators : Collaborators) (dir : Path) : Prop
    extends collaborators.Spare dir where
  way : ∀ calls call files l, l <+: dir.place files.cwd →
    (collaborators.respond calls call files).files.isFile l = files.isFile l

theorem Collaborators.Avoid.of_files_eq {collaborators : Collaborators} (dir : Path)
    (h : ∀ calls call files, (collaborators.respond calls call files).files = files) :
    collaborators.Avoid dir where
  tree calls call files htree := by rwa [h]
  cwd calls call files := by rw [h]
  same calls call files l _ := by rw [h]
  way calls call files l _ := by rw [h]

/-- Collaborators whose behaviour depends on the call alone. -/
structure Collaborators.ByCall (collaborators : Collaborators) : Prop where
  result : ∀ calls others call files more, (collaborators.respond calls call files).result =
    (collaborators.respond others call more).result
  shown : ∀ calls others call files more, (collaborators.respond calls call files).shown =
    (collaborators.respond others call more).shown
  interrupt : ∀ calls others call files more, (collaborators.respond calls call files).interrupt =
    (collaborators.respond others call more).interrupt

namespace Separate

variable {markers : MarkerStore} {sourcesDir : Path} {cwd : Location} {unit other : Installable}
  {fs a b : Files} (hsep : Separate markers sourcesDir cwd)

/-! ## Places -/

theorem not_prefix_of_snoc {l m : Location} (h : ¬ l <+: m) (name : String) : ¬ l ++ [name] <+: m :=
  fun hprefix => h ((List.prefix_append _ _).trans hprefix)

include hsep

theorem marker_off (name : String) :
    ¬ OnTheirWay markers sourcesDir cwd (markers.root.place cwd ++ [name]) := by
  rintro (h | h)
  · exact Path.not_snoc_prefix _ _ h
  · exact not_prefix_of_snoc hsep.root_out name h

theorem source_off (name : String) :
    ¬ OnTheirWay markers sourcesDir cwd (sourcesDir.place cwd ++ [name]) := by
  rintro (h | h)
  · exact not_prefix_of_snoc hsep.sources_out name h
  · exact Path.not_snoc_prefix _ _ h

theorem root_ne_sources : markers.root.place cwd ≠ sourcesDir.place cwd := by
  intro h
  exact hsep.root_out (h ▸ List.prefix_rfl)

/-- What a unit owns is on the way only if it is the directory of the markers itself. -/
theorem eq_of_owns (hunit : unit.WellFormed sourcesDir) {l : Location}
    (h : unit.Owns markers cwd l) (hway : OnTheirWay markers sourcesDir cwd l) :
    l = markers.root.place cwd ∧ markers.root.endsHere = true := by
  cases h with
  | marker phase => exact absurd hway (hsep.marker_off _)
  | source declared =>
    obtain ⟨name, hname, hpath⟩ := hunit.sources _ declared
    rw [hpath, Path.place_join sourcesDir hname] at hway
    exact absurd hway (hsep.source_off name)
  | root here => exact ⟨rfl, here⟩

theorem not_owns_source (hunit : unit.WellFormed sourcesDir) {name : String}
    (h : ∀ entry ∈ unit.sources, entry.path ≠ sourcesDir.join name) :
    ¬ unit.Owns markers cwd (sourcesDir.place cwd ++ [name]) := by
  intro howns
  generalize hl : sourcesDir.place cwd ++ [name] = l at howns
  cases howns with
  | marker phase => exact hsep.root_ne_sources (List.append_inj_left' hl rfl).symm
  | @source entry declared =>
    obtain ⟨second, hsecond, hpath⟩ := hunit.sources entry declared
    rw [hpath, Path.place_join sourcesDir hsecond] at hl
    obtain rfl : name = second := by simpa using List.append_inj_right' hl rfl
    exact h entry declared hpath
  | root => exact hsep.sources_out (hl ▸ List.prefix_append _ _)

theorem not_owns_marker (hunit : unit.WellFormed sourcesDir) {name : String} (phase : Phase)
    (h : unit.name ≠ name) : ¬ unit.Owns markers cwd (markers.place cwd name phase) := by
  intro howns
  generalize hl : markers.place cwd name phase = l at howns
  cases howns with
  | marker second => exact h (MarkerStore.place_inj.mp hl).1.symm
  | @source entry declared =>
    obtain ⟨second, hsecond, hpath⟩ := hunit.sources entry declared
    rw [hpath, Path.place_join sourcesDir hsecond] at hl
    exact hsep.root_ne_sources (List.append_inj_left' hl rfl)
  | root => exact markers.place_not_prefix_root cwd name phase (hl ▸ List.prefix_rfl)

/-! ## The directories -/

theorem root_made (hunit : unit.WellFormed sourcesDir) (h : fs.Stands cwd) :
    SameFor markers sourcesDir cwd unit fs (fs.makeDirectories markers.root).1 :=
  agreeOn_makeDirectories h hsep.root fun _ howns hway => hsep.eq_of_owns hunit howns (.inl hway)

theorem parent_made (hunit : unit.WellFormed sourcesDir) (h : fs.Stands cwd) {name : String}
    (hname : Path.IsName name) :
    SameFor markers sourcesDir cwd unit fs (fs.makeParent (sourcesDir.join name)).1 := by
  obtain ⟨q, hstraight, -, hplace, hmake⟩ := exists_makeParent_join hsep.sources hname
  rw [hmake]
  refine agreeOn_makeDirectories h hstraight fun l howns hway => ?_
  rw [hplace] at hway
  obtain ⟨rfl, -⟩ := hsep.eq_of_owns hunit howns (.inr hway)
  exact absurd hway hsep.root_out

/-! ## What others do -/

theorem source_apart (hunit : unit.WellFormed sourcesDir) {work : Work}
    (h : work.session.files.Stands cwd) {entry : SourceFile} {name : String}
    (hname : Path.IsName name) (hpath : entry.path = sourcesDir.join name)
    (hnot : ∀ own ∈ unit.sources, own.path ≠ entry.path) :
    SameFor markers sourcesDir cwd unit work.session.files
      (work.putSource entry).1.session.files := by
  have hmade : SameFor markers sourcesDir cwd unit _ _ := hsep.parent_made hunit h hname
  unfold Work.putSource
  rw [hpath] at hnot ⊢
  generalize work.session.files.makeParent (sourcesDir.join name) = result at hmade ⊢
  obtain ⟨made, fault?⟩ := result
  cases fault? with
  | some fault => exact hmade
  | none =>
    simp only
    split
    · next files hwrite =>
      exact hmade.trans (agreeOn_write hmade.right hsep.sources hname hwrite
        (hsep.source_off name) (hsep.not_owns_source hunit hnot))
    · exact hmade

theorem marker_apart (hunit : unit.WellFormed sourcesDir) {work : Work}
    (h : work.session.files.Stands cwd) {setting : Setting} (hmarkers : setting.markers = markers)
    (hslash : '/' ∉ work.unit.name.toList) (hname : unit.name ≠ work.unit.name) (phase : Phase) :
    SameFor markers sourcesDir cwd unit work.session.files
      (work.leaveMarker setting phase).1.session.files := by
  subst hmarkers
  have hmade : SameFor setting.markers sourcesDir cwd unit _ _ := hsep.root_made hunit h
  unfold Work.leaveMarker MarkerStore.create
  generalize work.session.files.makeDirectories setting.markers.root = result at hmade ⊢
  obtain ⟨made, fault?⟩ := result
  cases fault? with
  | some fault => exact hmade
  | none =>
    simp only
    cases hwrite : made.write (setting.markers.path work.unit.name phase) ByteArray.empty with
    | error fault => exact hmade
    | ok written =>
      exact hmade.trans (agreeOn_write hmade.right hsep.root
        (MarkerStore.isName_markName hslash phase) hwrite (hsep.marker_off _)
        (hsep.not_owns_marker hunit phase hname))

theorem respond_apart (hunit : unit.WellFormed sourcesDir) {collaborators : Collaborators}
    (hroot : collaborators.Avoid markers.root) (hsources : collaborators.Avoid sourcesDir)
    (h : fs.Stands cwd) (calls : List Call) (call : Call) :
    SameFor markers sourcesDir cwd unit fs (collaborators.respond calls call fs).files := by
  obtain ⟨rfl, htree⟩ := h
  have hinside {dir : Path} (havoid : collaborators.Avoid dir) (l : Location)
      (hl : dir.place fs.cwd <+: l) : (collaborators.respond calls call fs).files.at? l = fs.at? l :=
    havoid.same calls call fs l hl
  refine ⟨⟨rfl, htree⟩, ⟨hroot.cwd calls call fs, hroot.tree calls call fs htree⟩, ?_, ?_⟩
  · rintro l (hl | hl)
    · exact hroot.way calls call fs l hl
    · exact hsources.way calls call fs l hl
  · intro l hl
    cases hl with
    | marker phase => exact hinside hroot _ (List.prefix_append _ _)
    | source declared =>
      obtain ⟨name, hname, hpath⟩ := hunit.sources _ declared
      rw [hpath, Path.place_join sourcesDir hname]
      exact hinside hsources _ (List.prefix_append _ _)
    | root => exact hinside hroot _ List.prefix_rfl

section Others

variable {setting : Setting} (hmarkers : setting.markers = markers)
  (hroot : setting.collaborators.Avoid markers.root)
  (hsources : setting.collaborators.Avoid sourcesDir)
  (hunit : unit.WellFormed sourcesDir) (hother : other.WellFormed sourcesDir)
  (hapart : unit.Apart other)

include hmarkers hroot hsources hunit hother hapart

theorem move_apart {work next : Work} {step : Step} (h : work.session.files.Stands cwd)
    (hwork : work.unit.declared = other.declared) (hmove : Move setting work step next) :
    SameFor markers sourcesDir cwd unit work.session.files next.session.files := by
  have hname : work.unit.name = other.name := by
    rw [← Installable.name_declared, hwork, Installable.name_declared]
  cases hmove with
  | call due => exact hsep.respond_apart hunit hroot hsources h _ _
  | @source entry declared real missing =>
    rw [← Installable.sources_declared, hwork, Installable.sources_declared] at declared
    obtain ⟨name, hisName, hpath⟩ := hother.sources entry declared
    exact hsep.source_apart hunit h hisName hpath
      fun own hown => hapart.sources own hown entry declared
  | marker =>
    exact hsep.marker_apart hunit h hmarkers (hname ▸ hother.no_slash) (hname ▸ hapart.name) _
  | record | needRefresh | hold => exact .refl h

theorem visit_apart {session : Session} (h : session.files.Stands cwd) :
    SameFor markers sourcesDir cwd unit session.files
      (setting.visit session other).session.files := by
  have hvisited := visited setting session other
  generalize setting.visit session other = visit at hvisited ⊢
  cases hvisited with
  | interrupted | skipped => exact .refl h
  | @worked forced final stop? free decided ran =>
    have hend : SameFor markers sourcesDir cwd unit session.files
          (Work.runSteps setting Step.all (.begin session other forced)).1.session.files ∧
        (Work.runSteps setting Step.all (.begin session other forced)).1.unit.declared =
          other.declared := by
      refine runSteps_induction
        (Q := fun work => SameFor markers sourcesDir cwd unit session.files work.session.files ∧
          work.unit.declared = other.declared)
        (P := fun _ work => SameFor markers sourcesDir cwd unit session.files work.session.files ∧
          work.unit.declared = other.declared)
        (fun _ _ => id) ?_ (fun _ _ => id) ⟨.refl h, rfl⟩
      rintro step work next ⟨hsame, hdeclared⟩ hmove
      have hnext := hsep.move_apart hmarkers hroot hsources hunit hother hapart hsame.right hdeclared
        hmove
      exact ⟨hsame.trans hnext, hmove.kept.declared.trans hdeclared⟩
    rw [ran] at hend
    exact hend.1

end Others

/-! ## What the unit does -/

section Own

variable {before : List Event} {work twin : Work}

theorem present_own (hunit : unit.WellFormed sourcesDir)
    (h : SameFor markers sourcesDir cwd unit a b) {entry : SourceFile}
    (hentry : entry ∈ unit.sources) : b.exists? entry.path = a.exists? entry.path := by
  obtain ⟨name, hname, hpath⟩ := hunit.sources entry hentry
  have hplace := h.own _ (.source hentry)
  rw [hpath, Path.place_join sourcesDir hname] at hplace
  rw [hpath, Bool.eq_iff_iff, exists?_join_iff h.left.tree hsep.sources hname,
    exists?_join_iff h.right.tree hsep.sources hname, h.left.cwd, h.right.cwd, hplace]

theorem marked_own (hunit : unit.WellFormed sourcesDir)
    (h : SameFor markers sourcesDir cwd unit a b) (phase : Phase) :
    markers.has b unit.name phase = markers.has a unit.name phase := by
  have hcwd := h.left.cwd
  refine MarkerStore.has_of_at?_eq h.left.tree h.right.tree hsep.root (h.right.cwd.trans hcwd.symm)
    hunit.no_slash ?_
  rw [hcwd]
  exact h.own _ (.marker phase)

/-- Two sessions that are the same for the unit, the first of which has a past. -/
structure Abreast (markers : MarkerStore) (sourcesDir : Path) (cwd : Location) (unit : Installable)
    (before : List Event) (a b : Session) : Prop where
  files : SameFor markers sourcesDir cwd unit a.files b.files
  interrupted : b.interrupted = a.interrupted
  trace : a.trace = before ++ b.trace

omit hsep in
theorem Abreast.note {a b : Session} (h : Abreast markers sourcesDir cwd unit before a b)
    (event : Event) : Abreast markers sourcesDir cwd unit before (a.note event) (b.note event) :=
  ⟨h.files, h.interrupted, by simp [Session.note, h.trace]⟩

theorem root_made_both (hunit : unit.WellFormed sourcesDir)
    (h : SameFor markers sourcesDir cwd unit a b) :
    MadeAlike cwd (OnTheirWay markers sourcesDir cwd) (unit.Owns markers cwd)
      (markers.root.place cwd) (a.makeDirectories markers.root) (b.makeDirectories markers.root) :=
  h.makeDirectories hsep.root (fun _ => .inl)
    (fun _ howns hway => hsep.eq_of_owns hunit howns (.inl hway)) fun hhere => .inr (.root hhere)

theorem parent_made_both (hunit : unit.WellFormed sourcesDir)
    (h : SameFor markers sourcesDir cwd unit a b) {name : String} (hname : Path.IsName name) :
    MadeAlike cwd (OnTheirWay markers sourcesDir cwd) (unit.Owns markers cwd)
      (sourcesDir.place cwd) (a.makeParent (sourcesDir.join name))
      (b.makeParent (sourcesDir.join name)) := by
  obtain ⟨q, hstraight, hsettled, hplace, hmake⟩ := exists_makeParent_join hsep.sources hname
  rw [hmake, hmake, ← hplace]
  refine h.makeDirectories hstraight (fun l hl => .inr (hplace cwd ▸ hl)) (fun l howns hway => ?_)
    fun _ => .inl hsettled
  rw [hplace] at hway
  obtain ⟨rfl, -⟩ := hsep.eq_of_owns hunit howns (.inr hway)
  exact absurd hway hsep.root_out

theorem source_own (hunit : unit.WellFormed sourcesDir)
    (h : work.Alike (Abreast markers sourcesDir cwd unit before) twin) {entry : SourceFile}
    (hentry : entry ∈ unit.sources) :
    Agree (Abreast markers sourcesDir cwd unit before) (work.putSource entry)
      (twin.putSource entry) := by
  obtain ⟨hsame, hforced, hactions, hfiles, hinterrupted, htrace⟩ := h
  obtain ⟨name, hname, hpath⟩ := hunit.sources entry hentry
  have howns : unit.Owns markers cwd (sourcesDir.place cwd ++ [name]) := by
    rw [← Path.place_join sourcesDir hname, ← hpath]
    exact .source hentry
  obtain ⟨hfault, hmade, hthere⟩ := hsep.parent_made_both hunit hfiles hname
  unfold Work.putSource
  rw [hpath]
  generalize work.session.files.makeParent (sourcesDir.join name) = result at *
  generalize twin.session.files.makeParent (sourcesDir.join name) = result' at *
  obtain ⟨made, fault?⟩ := result
  obtain ⟨made', fault'?⟩ := result'
  obtain rfl : fault'? = fault? := hfault
  cases fault'? with
  | some fault => exact ⟨⟨hsame, hforced, hactions, hmade, hinterrupted, htrace⟩, rfl⟩
  | none =>
    rcases hmade.write hsep.sources hname (hthere rfl) howns entry.bytes with
      ⟨fault, hwrite, hwrite'⟩ | ⟨files, files', hwrite, hwrite', hwritten⟩
    · simp only [hwrite, hwrite']
      exact ⟨⟨hsame, hforced, hactions, hmade, hinterrupted, htrace⟩, rfl⟩
    · simp only [hwrite, hwrite']
      exact ⟨⟨hsame, hforced, hactions, hwritten, hinterrupted, by simp [Session.note, htrace]⟩, rfl⟩

theorem marker_own (hunit : unit.WellFormed sourcesDir)
    (h : work.Alike (Abreast markers sourcesDir cwd unit before) twin) {setting : Setting}
    (hmarkers : setting.markers = markers) (hname : work.unit.name = unit.name) (phase : Phase) :
    Agree (Abreast markers sourcesDir cwd unit before) (work.leaveMarker setting phase)
      (twin.leaveMarker setting phase) := by
  subst hmarkers
  obtain ⟨hsame, hforced, hactions, hfiles, hinterrupted, htrace⟩ := h
  have howns : unit.Owns setting.markers cwd (setting.markers.place cwd unit.name phase) :=
    .marker phase
  obtain ⟨hfault, hmade, hthere⟩ := hsep.root_made_both hunit hfiles
  unfold Work.leaveMarker MarkerStore.create
  rw [hsame, hname]
  generalize work.session.files.makeDirectories setting.markers.root = result at *
  generalize twin.session.files.makeDirectories setting.markers.root = result' at *
  obtain ⟨made, fault?⟩ := result
  obtain ⟨made', fault'?⟩ := result'
  obtain rfl : fault'? = fault? := hfault
  cases fault'? with
  | some fault => exact ⟨⟨rfl, hforced, hactions, hmade, hinterrupted, htrace⟩, rfl⟩
  | none =>
    rcases hmade.write hsep.root (MarkerStore.isName_markName hunit.no_slash phase) (hthere rfl)
        howns ByteArray.empty with
      ⟨fault, hwrite, hwrite'⟩ | ⟨files, files', hwrite, hwrite', hwritten⟩
    · simp only [MarkerStore.path_eq, hwrite, hwrite']
      exact ⟨⟨rfl, hforced, hactions, hmade, hinterrupted, htrace⟩, rfl⟩
    · simp only [MarkerStore.path_eq, hwrite, hwrite']
      exact ⟨⟨rfl, hforced, hactions, hwritten, hinterrupted, by simp [Session.note, htrace]⟩, rfl⟩

theorem request_own {setting : Setting} (hroot : setting.collaborators.Avoid markers.root)
    (hsources : setting.collaborators.Avoid sourcesDir) (hcall : setting.collaborators.ByCall)
    (hunit : unit.WellFormed sourcesDir) {a b : Session}
    (h : Abreast markers sourcesDir cwd unit before a b) (call : Call) :
    Abreast markers sourcesDir cwd unit before (a.request setting.collaborators call).1
        (b.request setting.collaborators call).1 ∧
      (b.request setting.collaborators call).2 = (a.request setting.collaborators call).2 := by
  obtain ⟨hfiles, hinterrupted, htrace⟩ := h
  have hresult := hcall.result b.calls a.calls call b.files a.files
  have hshown := hcall.shown b.calls a.calls call b.files a.files
  have hinterrupt := hcall.interrupt b.calls a.calls call b.files a.files
  refine ⟨⟨?_, ?_, ?_⟩, hresult⟩
  · exact hfiles.of_changes (hsep.respond_apart hunit hroot hsources hfiles.left _ _)
      (hsep.respond_apart hunit hroot hsources hfiles.right _ _)
  · simp [Session.request, Session.note, hinterrupted, hinterrupt]
  · simp [Session.request, Session.note, htrace, hresult, hshown]

theorem lockstep {setting : Setting} (hmarkers : setting.markers = markers)
    (hroot : setting.collaborators.Avoid markers.root)
    (hsources : setting.collaborators.Avoid sourcesDir) (hcall : setting.collaborators.ByCall)
    (hunit : unit.WellFormed sourcesDir) :
    Lockstep (Abreast markers sourcesDir cwd unit before) setting setting unit where
  dryRun := rfl
  snapshot := rfl
  markers := rfl
  request h call := hsep.request_own hroot hsources hcall hunit h call
  present h _ hentry := hsep.present_own hunit h.files hentry
  marked h phase := by
    rw [hmarkers]
    exact hsep.marked_own hunit h.files phase
  source h _ hentry := hsep.source_own hunit h hentry
  marker h hname phase := hsep.marker_own hunit h hmarkers hname phase

end Own

end Separate

/-! ## Whole visits -/

namespace Lockstep

variable {R : Session → Session → Prop} {setting : Setting} {unit : Installable}
  (hlock : Lockstep R setting setting unit)
  (hnote : ∀ {a b}, R a b → ∀ event, R (a.note event) (b.note event))
  (harrived : ∀ {a b}, R a b → b.interrupted = a.interrupted)

include hlock hnote harrived

theorem runSteps {steps : List Step} {work twin : Work} (h : work.Alike R twin)
    (hunit : work.unit.declared = unit.declared) :
    Agree R (Work.runSteps setting steps work) (Work.runSteps setting steps twin) := by
  induction steps generalizing work twin with
  | nil => exact ⟨h, rfl⟩
  | cons step rest ih =>
    unfold Work.runSteps
    rw [harrived h.session]
    split
    · exact ⟨h, rfl⟩
    · have hentered : (work.enter step).Alike R (twin.enter step) :=
        ⟨h.unit, h.forced, h.actions, hnote h.session _⟩
      have hdeclared : (work.enter step).unit.declared = unit.declared := hunit
      have htasks : ∀ task ∈ step.tasks work.unit, task ∈ step.tasks unit := by
        rw [← Step.tasks_declared work.unit, hunit, Step.tasks_declared]
        exact fun _ => id
      have hran := hlock.runTasks hentered hdeclared htasks
      have hkept := (goes_step setting step work).moves.kept.declared.trans hdeclared
      rw [h.unit]
      generalize Work.runTasks setting (step.tasks work.unit) (work.enter step) = ran at *
      generalize Work.runTasks setting (step.tasks work.unit) (twin.enter step) = ran' at *
      obtain ⟨ran, stop?⟩ := ran
      obtain ⟨ran', stop'?⟩ := ran'
      obtain rfl : stop'? = stop? := hran.stop
      cases stop'? with
      | none => exact ih hran.alike hkept
      | some stop =>
        have hsettle : ran'.settle stop = ran.settle stop := by
          unfold Work.settle
          rw [harrived hran.alike.session]
        exact ⟨hran.alike, congrArg some hsettle⟩

theorem visit {a b : Session} (h : R a b) :
    R (setting.visit a unit).session (setting.visit b unit).session ∧
      (setting.visit b unit).result = (setting.visit a unit).result := by
  have hbegan := hnote h (.began unit.name)
  cases hfree : a.interrupted with
  | true =>
    rw [visit_of_interrupted hfree, visit_of_interrupted ((harrived h).trans hfree)]
    exact ⟨hbegan, rfl⟩
  | false =>
    have hfree' := (harrived h).trans hfree
    cases hdecision : setting.criteria.judge unit setting.snapshot setting.hostname with
    | skip cause =>
      rw [visit_of_skip hfree hdecision, visit_of_skip hfree' hdecision]
      exact ⟨hbegan, rfl⟩
    | install forced =>
      have hbegin : (Work.begin a unit forced).Alike R (Work.begin b unit forced) :=
        ⟨rfl, rfl, rfl, hbegan⟩
      have hran : Agree R (Work.runSteps setting Step.all (.begin a unit forced))
          (Work.runSteps setting Step.all (.begin b unit forced)) :=
        hlock.runSteps hnote harrived hbegin rfl
      rw [visit_of_install hfree hdecision, visit_of_install hfree' hdecision]
      refine ⟨hran.alike.session, ?_⟩
      unfold Work.conclude
      simp only [hran.stop, hran.alike.actions]

end Lockstep

end Provision
