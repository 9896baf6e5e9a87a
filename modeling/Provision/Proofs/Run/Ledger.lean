import Provision.Proofs.Document.WellFormed
import Provision.Proofs.Run.Marker
import Provision.Proofs.Run.Scene
import Provision.Proofs.Run.Writes

/-!
# The trace as a ledger of markers

The markers that are there are those that were there at the start and those that the trace says were
left. The trace in turn says of every marker which script earned it, and of every script that may
run once only that no marker was there when it was called.
-/

namespace Provision

/-! ## Rules -/

/-- The script of a unit that selection lets through has just succeeded, and may run once only. -/
def Earned (setting : Setting) (unit : Installable) (phase : Phase) (before : List Event) : Prop :=
  setting.dryRun = false ∧ unit.isOnce phase = true ∧
    (∃ forced, setting.criteria.judge unit setting.snapshot setting.hostname = .install forced) ∧
    ∃ text answer shown earlier, unit.script? phase = some text ∧
      scene earlier = ⟨some unit.name, some (.ofPhase phase)⟩ ∧
      before = earlier ++ [.called (.runScript text) (.ok answer) shown]

/-- The call of a script is that of the unit being visited, and unless the script may run again no
marker of it was there at the start or has been left since. -/
def Unmarked (setting : Setting) (units : List Installable) (start : Files) (before : List Event)
    (text : String) : Prop :=
  ∃ unit ∈ units, ∃ phase, scene before = ⟨some unit.name, some (.ofPhase phase)⟩ ∧
    unit.script? phase = some text ∧ (unit.isOnce phase = true →
      setting.markers.has start unit.name phase = false ∧
      .createdMarker (setting.markers.path unit.name phase) ∉ before)

def MarkerRule (setting : Setting) (units : List Installable) (start : Files)
    (before : List Event) : Event → Prop
  | .called (.runScript text) _ _ => Unmarked setting units start before text
  | .createdMarker path => ∃ unit ∈ units, ∃ phase,
      path = setting.markers.path unit.name phase ∧ Earned setting unit phase before
  | _ => True

/-- What holds of a session all through a run that began with the files `start`. -/
structure Ledger (setting : Setting) (units : List Installable) (start : Files)
    (session : Session) : Prop where
  tree : session.files.IsTree
  cwd : session.files.cwd = start.cwd
  has : ∀ name phase, '/' ∉ name.toList → (setting.markers.has session.files name phase = true ↔
    setting.markers.has start name phase = true ∨
    .createdMarker (setting.markers.path name phase) ∈ session.trace)
  follows : Follows (MarkerRule setting units start) session.trace

/-- Collaborators that leave the directory of the markers and all that is in it alone. -/
structure Collaborators.Spare (collaborators : Collaborators) (root : Path) : Prop where
  tree : ∀ calls call files, files.IsTree → (collaborators.respond calls call files).files.IsTree
  cwd : ∀ calls call files, (collaborators.respond calls call files).files.cwd = files.cwd
  same : ∀ calls call files l, root.place files.cwd <+: l →
    (collaborators.respond calls call files).files.at? l = files.at? l

section

variable {setting : Setting} {units : List Installable} {start : Files} {session : Session}

namespace Ledger

theorem opened (htree : session.files.IsTree) (hfresh : session.trace = []) :
    Ledger setting units session.files session :=
  ⟨htree, rfl, by simp [hfresh], hfresh ▸ follows_nil _⟩

theorem withFiles (h : Ledger setting units start session) {files : Files} (htree : files.IsTree)
    (hcwd : files.cwd = session.files.cwd)
    (hhas : ∀ name phase, '/' ∉ name.toList →
      setting.markers.has files name phase = setting.markers.has session.files name phase)
    (interrupted : Bool) :
    Ledger setting units start { session with files, interrupted } := by
  refine ⟨htree, hcwd.trans h.cwd, fun name phase hname => ?_, h.follows⟩
  simp only [hhas name phase hname]
  exact h.has name phase hname

theorem note (h : Ledger setting units start session) {event : Event}
    (hevent : MarkerRule setting units start session.trace event)
    (hother : ∀ path, event ≠ .createdMarker path) :
    Ledger setting units start (session.note event) := by
  refine ⟨h.tree, h.cwd, fun name phase hname => ?_, h.follows.snoc hevent⟩
  have hnot := hother (setting.markers.path name phase)
  simp only [Session.note, List.mem_append, List.mem_singleton, Ne.symm hnot, or_false]
  exact h.has name phase hname

theorem endBy (h : Ledger setting units start session) (signal? : Option Signal) :
    Ledger setting units start (session.endBy signal?) :=
  ⟨h.tree, h.cwd, h.has, h.follows⟩

theorem mark (h : Ledger setting units start session) {unit : Installable} {phase : Phase}
    (hunit : unit ∈ units) (hslash : '/' ∉ unit.name.toList)
    (hearned : Earned setting unit phase session.trace) {files : Files}
    (hmade : setting.markers.Made session.files files unit.name phase true) :
    Ledger setting units start
      ({ session with files }.note (.createdMarker (setting.markers.path unit.name phase))) := by
  refine ⟨hmade.tree, hmade.cwd.trans h.cwd, fun name second hname => ?_, h.follows.snoc ?_⟩
  · simp only [Session.note, List.mem_append, List.mem_singleton, hmade.has name second hname,
      Bool.true_and, Bool.or_eq_true, decide_eq_true_eq, h.has name second hname,
      Event.createdMarker.injEq, MarkerStore.path_inj hname hslash, or_assoc]
    rw [eq_comm (a := unit.name), eq_comm (a := phase)]
  · exact ⟨unit, hunit, phase, rfl, hearned⟩

end Ledger

/-! ## One run -/

/-- What a ledger relies on: the two directories are apart, nobody else writes the one of the
markers, and the units are those of a document. -/
structure Kempt (setting : Setting) (sourcesDir : Path) (units : List Installable)
    (start : Files) : Prop where
  root : setting.markers.root.IsStraight
  sources : sourcesDir.IsStraight
  apart : ¬ setting.markers.root.place start.cwd <+: sourcesDir.place start.cwd
  spare : setting.collaborators.Spare setting.markers.root
  units : ∀ unit ∈ units, unit.declared.WellFormed sourcesDir

/-- The ledger while the work on a unit goes on. -/
structure AtWork (setting : Setting) (units : List Installable) (start : Files)
    (unit : Installable) (step? : Option Step) (work : Work) : Prop where
  ledger : Ledger setting units start work.session
  scene : scene work.session.trace = ⟨some unit.name, step?⟩
  declared : work.unit.declared = unit.declared

variable {sourcesDir : Path} {unit : Installable} {step : Step} {work next : Work}

theorem Ledger.request (h : Ledger setting units start session)
    (hkempt : Kempt setting sourcesDir units start) {call : Call}
    (hrule : ∀ result shown,
      MarkerRule setting units start session.trace (.called call result shown)) :
    Ledger setting units start (session.request setting.collaborators call).1 := by
  have htree := hkempt.spare.tree session.calls call session.files h.tree
  have hcwd := hkempt.spare.cwd session.calls call session.files
  refine Ledger.endBy (Ledger.note (h.withFiles htree hcwd (fun name phase hname => ?_) _)
    (hrule _ _) (by simp)) _
  exact MarkerStore.has_of_at?_eq h.tree htree hkempt.root hcwd hname
    (hkempt.spare.same session.calls call session.files _ (List.prefix_append _ _))

theorem not_sourceEntry_place (hapart : ¬ setting.markers.root.place start.cwd <+:
      sourcesDir.place start.cwd) {name file : String} (hfile : Path.IsName file) {phase : Phase}
    {content : ByteArray} (node : Node) :
    ¬ SourceEntry ((sourcesDir.join file).place start.cwd) content
      (setting.markers.place start.cwd name phase) node := by
  intro h
  have hprefix := h.prefix
  rw [Path.place_join _ hfile, MarkerStore.place, List.prefix_concat_iff] at hprefix
  rcases hprefix with heq | hprefix
  · exact hapart ((List.append_inj' heq rfl).1 ▸ List.prefix_rfl)
  · exact hapart ((List.prefix_append _ _).trans hprefix)

namespace AtWork

theorem source (h : AtWork setting units start unit (some step) work)
    (hkempt : Kempt setting sourcesDir units start) (hunit : unit ∈ units) {entry : SourceFile}
    (hentry : entry ∈ work.unit.sources)
    (hmissing : work.session.files.exists? entry.path = false) :
    AtWork setting units start unit (some step) (work.putSource entry).1 := by
  have hdeclared := (Move.kept_putSource work entry).declared.trans h.declared
  have hsources : work.unit.sources = unit.declared.sources := by
    rw [← h.declared, Installable.sources_declared]
  obtain ⟨file, hfile, hpath⟩ := (hkempt.units unit hunit).sources entry (hsources ▸ hentry)
  obtain ⟨files, hgrows, hsession⟩ :=
    putSource_session h.ledger.tree hkempt.sources hfile hpath hmissing
  have hledger : Ledger setting units start { work.session with files } := by
    refine h.ledger.withFiles (hgrows.tree h.ledger.tree) hgrows.cwd (fun name phase hname => ?_) _
    refine MarkerStore.has_of_grows h.ledger.tree hkempt.root hgrows hname fun node => ?_
    rw [hpath, h.ledger.cwd]
    exact not_sourceEntry_place hkempt.apart hfile node
  rcases hsession with hsession | hsession
  · exact ⟨hsession ▸ hledger, by rw [hsession]; exact h.scene, hdeclared⟩
  · refine ⟨hsession ▸ hledger.note trivial (by simp), ?_, hdeclared⟩
    rw [hsession, Session.note, scene_append_singleton]
    exact h.scene

/-- The script that has just succeeded earns the marker that is left. -/
theorem marker {phase : Phase} (h : AtWork setting units start unit (some (.ofPhase phase)) work)
    (hkempt : Kempt setting sourcesDir units start) (hunit : unit ∈ units)
    (hselected : ∃ forced, setting.criteria.judge unit setting.snapshot setting.hostname =
      .install forced) {text answer : String} (hscript : work.unit.script? phase = some text)
    (honce : work.unit.isOnce phase = true) (hreal : setting.dryRun = false)
    (hran : work.session.Answered (.runScript text) answer) :
    AtWork setting units start unit (some (.ofPhase phase)) (work.leaveMarker setting phase).1 := by
  have hdeclared := (Move.kept_leaveMarker setting phase work).declared.trans h.declared
  have hname : work.unit.name = unit.name := by
    rw [← Installable.name_declared, h.declared, Installable.name_declared]
  have hslash : '/' ∉ unit.name.toList := (hkempt.units unit hunit).no_slash
  have hscene := h.scene
  obtain ⟨earlier, shown, htrace⟩ := hran
  have hearned : Earned setting unit phase work.session.trace := by
    refine ⟨hreal, ?_, hselected, text, answer, shown, earlier, ?_, ?_, htrace⟩
    · rwa [← Installable.isOnce_declared, ← h.declared, Installable.isOnce_declared]
    · rwa [← Installable.script?_declared, ← h.declared, Installable.script?_declared]
    · rwa [htrace, scene_append_singleton] at hscene
  have hmade := MarkerStore.create_made h.ledger.tree hkempt.root hslash phase
  have hpath := @MarkerStore.create_snd_eq_ok setting.markers work.session.files unit.name phase
  unfold Work.leaveMarker at hdeclared ⊢
  rw [hname] at hdeclared ⊢
  generalize setting.markers.create work.session.files unit.name phase = result at *
  obtain ⟨files, path | path⟩ := result
  · refine ⟨h.ledger.withFiles hmade.tree hmade.cwd (fun name second hother => ?_) _, hscene,
      hdeclared⟩
    rw [hmade.has name second hother]
    exact Bool.or_false _
  · obtain rfl := hpath rfl
    exact ⟨h.ledger.mark hunit hslash hearned hmade,
      (scene_append_singleton work.session.trace _).trans hscene, hdeclared⟩

theorem call (h : AtWork setting units start unit (some step) work)
    (hkempt : Kempt setting sourcesDir units start) (hunit : unit ∈ units) {call : Call}
    (hdue : Due setting work step call) :
    AtWork setting units start unit (some step) (work.called setting call) := by
  refine ⟨h.ledger.request hkempt fun result shown => ?_, ?_, h.declared⟩
  · cases hdue with
    | @runScript phase text hscript hunmarked hreal =>
      have hname : work.unit.name = unit.name := by
        rw [← Installable.name_declared, h.declared, Installable.name_declared]
      have hslash : '/' ∉ unit.name.toList := (hkempt.units unit hunit).no_slash
      refine ⟨unit, hunit, phase, h.scene, ?_, fun honce => ?_⟩
      · rwa [← Installable.script?_declared, ← h.declared, Installable.script?_declared]
      · rw [← Installable.isOnce_declared, ← h.declared, Installable.isOnce_declared] at honce
        have hnone := hunmarked honce
        rw [hname, Bool.eq_false_iff, ne_eq, h.ledger.has unit.name phase hslash, not_or] at hnone
        exact ⟨by simpa using hnone.1, hnone.2⟩
    | _ => trivial
  · simp only [Work.called, Session.request, Session.trace_endBy, Session.note,
      scene_append_singleton]
    exact h.scene

theorem move (h : AtWork setting units start unit (some step) work)
    (hkempt : Kempt setting sourcesDir units start) (hunit : unit ∈ units)
    (hselected : ∃ forced, setting.criteria.judge unit setting.snapshot setting.hostname =
      .install forced) (hmove : Move setting work step next) :
    AtWork setting units start unit (some step) next := by
  cases hmove with
  | call hdue => exact h.call hkempt hunit hdue
  | source hentry hreal hmissing => exact h.source hkempt hunit hentry hmissing
  | marker hscript honce hreal hran =>
    exact h.marker hkempt hunit hselected hscript honce hreal hran
  | record | needRefresh | hold => exact ⟨h.ledger, h.scene, h.declared⟩

theorem enter {step? : Option Step} (h : AtWork setting units start unit step? work) :
    AtWork setting units start unit (some step) (work.enter step) := by
  refine ⟨h.ledger.note trivial (by simp), ?_, h.declared⟩
  rw [scene_enter, h.scene]

end AtWork

theorem Ledger.visit (h : Ledger setting units start session)
    (hkempt : Kempt setting sourcesDir units start) (hunit : unit ∈ units) :
    Ledger setting units start (setting.visit session unit).session := by
  have hbegan : Ledger setting units start (session.note (.began unit.name)) :=
    h.note trivial (by simp)
  have hvisited := visited setting session unit
  generalize setting.visit session unit = visit at hvisited ⊢
  cases hvisited with
  | interrupted | skipped => exact hbegan
  | @worked forced final stop? free decided ran =>
    have hbegin : AtWork setting units start unit none (.begin session unit forced) :=
      ⟨hbegan, scene_begin session unit forced, rfl⟩
    have hend : ∃ step?, AtWork setting units start unit step?
        (Work.runSteps setting Step.all (.begin session unit forced)).1 := by
      refine runSteps_induction
        (Q := fun work => ∃ step?, AtWork setting units start unit step? work)
        (P := fun step work => AtWork setting units start unit (some step) work)
        ?_ ?_ ?_ ⟨none, hbegin⟩
      · rintro step work ⟨step?, hwork⟩
        exact hwork.enter
      · intro step work next hwork hmove
        exact hwork.move hkempt hunit ⟨forced, decided⟩ hmove
      · exact fun step work hwork => ⟨some step, hwork⟩
    rw [ran] at hend
    obtain ⟨step?, hend⟩ := hend
    exact hend.ledger

theorem ledger_of_run (strict : Bool) (state : RunState) (hfresh : state.session.trace = [])
    (htree : state.session.files.IsTree)
    (hkempt : Kempt setting sourcesDir (state.catalog.entries.map Entry.unit) state.session.files) :
    Ledger setting (state.catalog.entries.map Entry.unit) state.session.files
      (RunState.run setting strict state).1.session := by
  have hbucket : ∀ entry ∈ state.catalog.entries, entry.unit.OneBucket :=
    fun entry hentry => (hkempt.units entry.unit (List.mem_map_of_mem hentry)).one_bucket
  have hdue : ∀ unit ∈ state.due, unit ∈ state.catalog.entries.map Entry.unit := by
    intro unit hunit
    obtain ⟨entry, hentry, rfl⟩ := RunState.exists_entry_of_due hunit
    exact List.mem_map_of_mem hentry
  rw [(RunState.run_ledBy setting strict state hbucket).session]
  exact tour_preserves (fun unit hunit _ h => h.visit hkempt (hdue unit hunit))
    (fun _ _ h => h.note trivial (by simp)) (.opened htree hfresh)

end

end Provision
