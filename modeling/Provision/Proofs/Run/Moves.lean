import Mathlib.Logic.Relation
import Provision.Run.Stage

/-!
# What a run does, move by move

All that a step does to a unit at work is a sequence of moves, and each move says when it may be
made. What the moves keep is kept by a whole visit.
-/

namespace Provision

namespace Installable

/-- The unit as its document declares it, without what runs have left in it. -/
def declared (unit : Installable) : Installable := { unit with archive? := none, refreshDue := false }

@[simp] theorem name_declared (unit : Installable) : unit.declared.name = unit.name := rfl
@[simp] theorem has_declared (unit : Installable) : unit.declared.has = unit.has := rfl
@[simp] theorem bucket_declared (unit : Installable) : unit.declared.bucket = unit.bucket := rfl
@[simp] theorem isOnce_declared (unit : Installable) : unit.declared.isOnce = unit.isOnce := rfl
@[simp] theorem sources_declared (unit : Installable) : unit.declared.sources = unit.sources := rfl
@[simp] theorem url?_declared (unit : Installable) : unit.declared.url? = unit.url? := rfl
@[simp] theorem declared_declared (unit : Installable) : unit.declared.declared = unit.declared := rfl

@[simp] theorem script?_declared (unit : Installable) : unit.declared.script? = unit.script? := by
  funext phase
  cases phase <;> rfl

theorem eq_of_declared_eq {α : Type} {unit other : Installable} (h : unit.declared = other.declared)
    (f : Installable → α) (hf : ∀ unit, f unit.declared = f unit) : f unit = f other := by
  rw [← hf, h, hf]

end Installable

@[simp] theorem Step.tasks_declared (unit : Installable) (step : Step) :
    step.tasks unit.declared = step.tasks unit := by
  cases step <;> rfl

@[simp] theorem Criteria.judge_declared (criteria : Criteria) (unit : Installable) :
    criteria.judge unit.declared = criteria.judge unit := rfl

/-- A call has been made and answered, and nothing has happened since. -/
def Session.Answered (session : Session) (call : Call) (answer : String) : Prop :=
  ∃ before shown, session.trace = before ++ [.called call (.ok answer) shown]

/-- A source file that could not be written, or a directory that was to hold it, with what is left
and what is said then. -/
inductive Unwritten (entry : SourceFile) (before : Files) : Files → String → Prop
  | parent {made : Files} {fault : Files.Fault}
      (making : before.makeParent entry.path = (made, some fault)) :
      Unwritten entry before made (Failure.text ⟨fault.message, []⟩)
  | file {made : Files} {fault : Files.Fault}
      (making : before.makeParent entry.path = (made, none))
      (writing : made.write entry.path entry.bytes = .error fault) :
      Unwritten entry before made
        (Failure.text ⟨s!"Failed to write {entry.path.text}", [fault.message]⟩)

namespace Work

/-- The work after a call, whatever its answer is. -/
def called (setting : Setting) (call : Call) (work : Work) : Work :=
  { work with session := (work.session.request setting.collaborators call).1 }

theorem ask_eq (setting : Setting) (step : Step) (call : Call) (work : Work) :
    work.ask setting step call = (work.called setting call,
      (work.session.request setting.collaborators call).2.mapError (fail step)) := by
  have hrequest : work.session.request setting.collaborators call =
      ((work.called setting call).session, (work.session.request setting.collaborators call).2) :=
    rfl
  unfold ask
  rw [hrequest]
  cases (work.session.request setting.collaborators call).2 <;> rfl

theorem really_eq_some {setting : Setting} {act : Work → Work × Option Stop} {done : Work → Work}
    {work final : Work} {stop : Stop} (h : work.really setting act done = (final, some stop)) :
    setting.dryRun = false ∧ act work = (final, some stop) := by
  unfold really at h
  split at h
  · cases h
  · next hdry =>
    split at h
    · cases h
    · next hact => exact ⟨by simpa using hdry, hact.trans h⟩

theorem putSource_cases (work : Work) (entry : SourceFile) :
    (∃ files, work.putSource entry =
      ({ work with session := { work.session with files }.note (.wroteSource entry.path) }, none)) ∨
    ∃ files message, work.putSource entry = ({ work with session := { work.session with files } },
        some (.failed ⟨.sources, message⟩)) ∧
      Unwritten entry work.session.files files message := by
  unfold putSource
  split
  · next made fault hmaking => exact .inr ⟨_, _, rfl, .parent hmaking⟩
  · next made hmaking =>
    split
    · exact .inl ⟨_, rfl⟩
    · next fault hwriting => exact .inr ⟨_, _, rfl, .file hmaking hwriting⟩

theorem leaveMarker_cases (setting : Setting) (phase : Phase) (work : Work) :
    (∃ files path, work.leaveMarker setting phase =
        ({ work with session := { work.session with files }.note (.createdMarker path) }, none) ∧
      setting.markers.create work.session.files work.unit.name phase = (files, .ok path)) ∨
    ∃ files failure, work.leaveMarker setting phase =
        ({ work with session := { work.session with files } },
          some (.fatal (.environment failure.text))) ∧
      setting.markers.create work.session.files work.unit.name phase = (files, .error failure) := by
  unfold leaveMarker
  split
  · next files path hcreate => exact .inl ⟨files, path, rfl, hcreate⟩
  · next files failure hcreate => exact .inr ⟨files, failure, rfl, hcreate⟩

end Work

/-! ## Moves -/

/-- The calls that a step may make for a unit at work. -/
inductive Due (setting : Setting) (work : Work) : Step → Call → Prop
  | addRepository {identifier : String} (declared : identifier ∈ work.unit.repositories)
      (real : setting.dryRun = false) : Due setting work .repositories (.addRepository identifier)
  | refreshIndex (due : work.unit.refreshDue = true) (real : setting.dryRun = false) :
      Due setting work .refreshIndex .refreshIndex
  | runScript {phase : Phase} {text : String} (declared : work.unit.script? phase = some text)
      (unmarked : work.unit.isOnce phase = true →
        setting.markers.has work.session.files work.unit.name phase = false)
      (real : setting.dryRun = false) : Due setting work (.ofPhase phase) (.runScript text)
  | fetch {url : String} (declared : work.unit.url? = some url) (real : setting.dryRun = false) :
      Due setting work .retrieve (.fetch url)
  | nameOf {url text : String} (fetched : work.session.Answered (.fetch url) text)
      (real : setting.dryRun = false) : Due setting work .retrieve (.nameOf ⟨text⟩)
  | installArchive {archive : Path} (declared : work.unit.delivery = .downloadedArchive)
      (held : work.unit.archive? = some archive) : Due setting work .install (.installArchive archive)
  | reinstall (declared : work.unit.delivery = .packageManager)
      (payload : work.unit.has .virtual = false) (real : setting.dryRun = false) :
      Due setting work .install (.reinstall work.unit.package)

/-- One thing that a step does to a unit at work. -/
inductive Move (setting : Setting) (work : Work) : Step → Work → Prop
  | call {step : Step} {call : Call} (due : Due setting work step call) :
      Move setting work step (work.called setting call)
  | source {entry : SourceFile} (declared : entry ∈ work.unit.sources)
      (real : setting.dryRun = false) (missing : work.session.files.exists? entry.path = false) :
      Move setting work .sources (work.putSource entry).1
  | marker {phase : Phase} {text answer : String} (declared : work.unit.script? phase = some text)
      (once : work.unit.isOnce phase = true) (real : setting.dryRun = false)
      (ran : work.session.Answered (.runScript text) answer) :
      Move setting work (.ofPhase phase) (work.leaveMarker setting phase).1
  | record {step : Step} (action : Action) : Move setting work step (work.record action)
  | needRefresh {step : Step} : Move setting work step work.needRefresh
  | hold {text package : String} (named : work.session.Answered (.nameOf ⟨text⟩) package)
      (new : work.forced = true ∨ setting.snapshot.has package = false) :
      Move setting work .retrieve { work with unit := { work.unit with archive? := some ⟨text⟩ } }

namespace Move

variable {setting : Setting} {work next : Work} {step : Step}

/-- What a move keeps, whatever it does to the files and to the trace. -/
structure Kept (before after : Work) : Prop where
  declared : after.unit.declared = before.unit.declared
  forced : after.forced = before.forced
  results : after.session.results = before.session.results
  trace : before.session.trace <+: after.session.trace
  interrupted : before.session.interrupted = true → after.session.interrupted = true

theorem Kept.refl (work : Work) : Kept work work := ⟨rfl, rfl, rfl, List.prefix_rfl, id⟩

theorem Kept.trans {a b c : Work} (hab : Kept a b) (hbc : Kept b c) : Kept a c :=
  ⟨hbc.declared.trans hab.declared, hbc.forced.trans hab.forced, hbc.results.trans hab.results,
    hab.trace.trans hbc.trace, hbc.interrupted ∘ hab.interrupted⟩

theorem Kept.note {work : Work} {event : Event} {files : Files} (h : event.result? = none) :
    Kept work { work with session := { work.session with files }.note event } := by
  refine ⟨rfl, rfl, ?_, List.prefix_append _ _, id⟩
  rw [Session.results_note, h]
  exact List.append_nil _

theorem kept_putSource (work : Work) (entry : SourceFile) : Kept work (work.putSource entry).1 := by
  rcases work.putSource_cases entry with ⟨files, hput⟩ | ⟨files, message, hput, -⟩
  · rw [hput]
    exact .note rfl
  · rw [hput]
    exact ⟨rfl, rfl, rfl, List.prefix_rfl, id⟩

theorem kept_leaveMarker (setting : Setting) (phase : Phase) (work : Work) :
    Kept work (work.leaveMarker setting phase).1 := by
  rcases work.leaveMarker_cases setting phase with
    ⟨files, path, hleave, -⟩ | ⟨files, failure, hleave, -⟩
  · rw [hleave]
    exact .note rfl
  · rw [hleave]
    exact ⟨rfl, rfl, rfl, List.prefix_rfl, id⟩

theorem kept_called (setting : Setting) (call : Call) (work : Work) :
    Kept work (work.called setting call) :=
  ⟨rfl, rfl, Session.results_request _ _ _, List.prefix_append _ _,
    fun h => Session.interrupted_request _ _ _ h⟩

theorem kept (h : Move setting work step next) : Kept work next := by
  cases h with
  | call => exact kept_called setting _ work
  | source => exact kept_putSource work _
  | marker => exact kept_leaveMarker setting _ work
  | record | needRefresh | hold => exact ⟨rfl, rfl, rfl, List.prefix_rfl, id⟩

end Move

/-- What a move may add to the trace. -/
inductive Adds (setting : Setting) (work : Work) : Step → Event → Prop
  | called {step : Step} {call : Call} (due : Due setting work step call)
      (result : Except Failure String) (shown : ByteArray) :
      Adds setting work step (.called call result shown)
  | wroteSource (path : Path) (real : setting.dryRun = false) :
      Adds setting work .sources (.wroteSource path)
  | createdMarker (phase : Phase) (path : Path) (real : setting.dryRun = false) :
      Adds setting work (.ofPhase phase) (.createdMarker path)

theorem Move.trace_cases {setting : Setting} {work next : Work} {step : Step}
    (h : Move setting work step next) : next.session.trace = work.session.trace ∨
      ∃ event, next.session.trace = work.session.trace ++ [event] ∧
        Adds setting work step event := by
  cases h with
  | call due => exact .inr ⟨_, rfl, .called due _ _⟩
  | @source entry declared real missing =>
    rcases work.putSource_cases entry with ⟨files, hput⟩ | ⟨files, message, hput, -⟩ <;> rw [hput]
    · exact .inr ⟨_, rfl, .wroteSource entry.path real⟩
    · exact .inl rfl
  | @marker phase text answer declared once real ran =>
    rcases work.leaveMarker_cases setting phase with
      ⟨files, path, hleave, -⟩ | ⟨files, failure, hleave, -⟩ <;>
      rw [hleave]
    · exact .inr ⟨_, rfl, .createdMarker phase path real⟩
    · exact .inl rfl
  | record | needRefresh | hold => exact .inl rfl

abbrev Moves (setting : Setting) (step : Step) : Work → Work → Prop :=
  Relation.ReflTransGen fun work next => Move setting work step next

namespace Moves

variable {setting : Setting} {step : Step} {work next : Work}

theorem preserves {P : Work → Prop} (h : Moves setting step work next)
    (move : ∀ work next, P work → Move setting work step next → P next) (hwork : P work) :
    P next := by
  induction h with
  | refl => exact hwork
  | tail _ hmove ih => exact move _ _ ih hmove

theorem kept (h : Moves setting step work next) : Move.Kept work next :=
  h.preserves (P := Move.Kept work) (fun _ _ hwork hmove => hwork.trans hmove.kept) (.refl work)

end Moves

/-- Why a step may end the work on a unit. -/
inductive Ends (setting : Setting) (work : Work) : Step → Stop → Prop
  | failed {step : Step} {message : String} : Ends setting work step (.failed ⟨step, message⟩)
  | installed {url package : String} (declared : work.unit.url? = some url)
      (real : setting.dryRun = false) (unforced : work.forced = false)
      (found : setting.snapshot.has package = true) :
      Ends setting work .retrieve (.skipped (.archiveInstalled package))
  | unmarked {phase : Phase} {message : String} :
      Ends setting work (.ofPhase phase) (.fatal (.environment message))

theorem Ends.of_kept {setting : Setting} {step : Step} {work next : Work} {stop : Stop}
    (h : Move.Kept work next) (hends : Ends setting next step stop) :
    Ends setting work step stop := by
  have hurl : next.unit.url? = work.unit.url? := by
    rw [← Installable.url?_declared, h.declared, Installable.url?_declared]
  cases hends with
  | failed => exact .failed
  | installed declared real unforced found =>
    exact .installed (hurl ▸ declared) real (h.forced ▸ unforced) found
  | unmarked => exact .unmarked

/-- How the work on a unit goes in a step. -/
structure Goes (setting : Setting) (step : Step) (work : Work) (ran : Work × Option Stop) :
    Prop where
  moves : Moves setting step work ran.1
  ends : ∀ stop, ran.2 = some stop → Ends setting work step stop

namespace Goes

variable {setting : Setting} {step : Step} {work next : Work}

theorem done (h : Moves setting step work next) : Goes setting step work (next, none) :=
  ⟨h, fun _ hstop => by cases hstop⟩

theorem stopped {stop : Stop} (h : Moves setting step work next)
    (hends : Ends setting work step stop) : Goes setting step work (next, some stop) :=
  ⟨h, fun _ hstop => Option.some.inj hstop ▸ hends⟩

theorem of_moves {ran : Work × Option Stop} (h : Moves setting step work next)
    (hran : Goes setting step next ran) : Goes setting step work ran :=
  ⟨h.trans hran.moves, fun stop hstop => .of_kept h.kept (hran.ends stop hstop)⟩

/-! ## Calls -/

theorem ask_cases (setting : Setting) (step : Step) (call : Call) (work : Work) :
    (∃ answer, work.ask setting step call = (work.called setting call, .ok answer) ∧
      (work.called setting call).session.Answered call answer) ∨
    ∃ failure, work.ask setting step call =
      (work.called setting call, .error (Work.fail step failure)) := by
  rw [Work.ask_eq]
  cases hresult : (work.session.request setting.collaborators call).2 with
  | ok answer =>
    refine .inl ⟨answer, rfl, work.session.trace,
      (setting.collaborators.respond work.session.calls call work.session.files).shown, ?_⟩
    rw [← hresult]
    rfl
  | error failure => exact .inr ⟨failure, rfl⟩

theorem moves_called {call : Call} (h : Due setting work step call) :
    Moves setting step work (work.called setting call) :=
  .single (.call h)

theorem tell_cases (setting : Setting) (step : Step) (call : Call) (work : Work) :
    (∃ answer, work.tell setting step call = (work.called setting call, none) ∧
      (work.called setting call).session.Answered call answer) ∨
    ∃ failure, work.tell setting step call =
      (work.called setting call, some (Work.fail step failure)) := by
  unfold Work.tell
  rcases ask_cases setting step call work with
    ⟨answer, hask, hanswered⟩ | ⟨failure, hask⟩
  · exact .inl ⟨answer, by rw [hask], hanswered⟩
  · exact .inr ⟨failure, by rw [hask]⟩

theorem tell {call : Call} (h : Due setting work step call) :
    Goes setting step work (work.tell setting step call) := by
  rcases tell_cases setting step call work with ⟨answer, htell, -⟩ | ⟨failure, htell⟩
  · rw [htell]
    exact done (moves_called h)
  · rw [htell]
    exact stopped (moves_called h) .failed

/-- A dry run goes on at once; a real run acts before it goes on. -/
theorem really {act : Work → Work × Option Stop} {finish : Work → Work}
    (hact : setting.dryRun = false → Goes setting step work (act work))
    (hfinish : ∀ next, Moves setting step next (finish next)) :
    Goes setting step work (work.really setting act finish) := by
  unfold Work.really
  cases hdry : setting.dryRun with
  | true => exact done (hfinish work)
  | false =>
    have hacts := hact hdry
    simp only [Bool.false_eq_true, if_false]
    split
    · next acted hacted =>
      rw [hacted] at hacts
      exact done (hacts.moves.trans (hfinish acted))
    · next acted stop hacted =>
      rw [hacted] at hacts
      exact stopped hacts.moves (hacts.ends stop rfl)

/-! ## Tasks -/

theorem addRepository {identifier : String} (h : identifier ∈ work.unit.repositories) :
    Goes setting .repositories work (work.addRepository setting identifier) :=
  really (fun real => tell (.addRepository h real))
    fun _ => .tail (.single (.record _)) .needRefresh

theorem putSource_ends (work : Work) (entry : SourceFile) {stop : Stop}
    (h : (work.putSource entry).2 = some stop) : Ends setting work .sources stop := by
  rcases work.putSource_cases entry with ⟨files, hput⟩ | ⟨files, message, hput, -⟩
  · rw [hput] at h
    cases h
  · rw [hput] at h
    obtain rfl := Option.some.inj h
    exact .failed

theorem writeSource {entry : SourceFile} (h : entry ∈ work.unit.sources) :
    Goes setting .sources work (work.writeSource setting entry) := by
  unfold Work.writeSource
  split
  · exact done .refl
  · next hmissing =>
    refine really (fun real => ⟨.single (.source h real (by simpa using hmissing)), ?_⟩)
      fun _ => .tail (.single (.record _)) .needRefresh
    exact fun stop hstop => putSource_ends work entry hstop

theorem refreshIndex (work : Work) : Goes setting .refreshIndex work (work.refreshIndex setting) := by
  unfold Work.refreshIndex
  split
  · next hdue =>
    exact really (fun real => tell (.refreshIndex hdue real)) fun _ => .single (.record _)
  · exact done .refl

theorem leaveMarker_ends (work : Work) (phase : Phase) {stop : Stop}
    (h : (work.leaveMarker setting phase).2 = some stop) :
    Ends setting work (.ofPhase phase) stop := by
  rcases work.leaveMarker_cases setting phase with
    ⟨files, path, hleave, -⟩ | ⟨files, failure, hleave, -⟩
  · rw [hleave] at h
    cases h
  · rw [hleave] at h
    obtain rfl := Option.some.inj h
    exact .unmarked

theorem runScript (work : Work) (phase : Phase) :
    Goes setting (.ofPhase phase) work (work.runScript setting phase) := by
  unfold Work.runScript
  split
  · exact done .refl
  · next text hscript =>
    simp only
    split
    · exact done .refl
    · next hrun =>
      have hunmarked : work.unit.isOnce phase = true →
          setting.markers.has work.session.files work.unit.name phase = false := by
        simpa using hrun
      apply really
      · intro real
        have hmoves := moves_called (.runScript hscript hunmarked real)
        rcases tell_cases setting (.ofPhase phase) (.runScript text) work with
          ⟨answer, htell, hanswered⟩ | ⟨failure, htell⟩
        · rw [htell]
          simp only
          split
          · next honce =>
            refine of_moves hmoves ⟨.single (.marker hscript honce real hanswered), ?_⟩
            exact fun stop hstop => leaveMarker_ends _ phase hstop
          · exact done hmoves
        · rw [htell]
          exact stopped hmoves .failed
      · intro next
        split
        · exact .tail (.single (.record _)) (.record _)
        · exact .single (.record _)

theorem retrieve (work : Work) : Goes setting .retrieve work (work.retrieve setting) := by
  unfold Work.retrieve
  split
  · exact done .refl
  · next url hurl =>
    split
    · exact done .refl
    · split
      · exact done (.single (.record _))
      · next hdry =>
        have real : setting.dryRun = false := by simpa using hdry
        have hfetch := moves_called (.fetch hurl real)
        rcases ask_cases setting .retrieve (.fetch url) work with
          ⟨text, hask, hfetched⟩ | ⟨failure, hask⟩
        · rw [hask]
          simp only
          have hrecord := hfetch.tail (.record (.download url))
          refine of_moves hrecord ?_
          have hname : Moves setting .retrieve ((work.called setting (.fetch url)).record
              (.download url)) _ := moves_called (.nameOf hfetched real)
          rcases ask_cases setting .retrieve (.nameOf ⟨text⟩) ((work.called setting (.fetch url)).record
            (.download url)) with ⟨package, hask, hnamed⟩ | ⟨failure, hask⟩
          · rw [hask]
            simp only
            split
            · next hfound =>
              simp only [Bool.and_eq_true, Bool.not_eq_true'] at hfound
              exact stopped hname (.installed hurl real hfound.1 hfound.2)
            · next hnew =>
              refine done (hname.tail (.hold hnamed ?_))
              cases hforced : work.forced with
              | true => exact .inl hforced
              | false => exact .inr (by simpa [hforced, Work.called, Work.record] using hnew)
          · rw [hask]
            exact stopped hname .failed
        · rw [hask]
          exact stopped hfetch .failed

theorem installPayload (work : Work) : Goes setting .install work (work.installPayload setting) := by
  unfold Work.installPayload
  split
  · next hdelivery =>
    split
    · next archive harchive =>
      have hmoves : Moves setting .install work _ :=
        moves_called (.installArchive hdelivery harchive)
      rcases tell_cases setting .install (.installArchive archive) work with
        ⟨answer, htell, -⟩ | ⟨failure, htell⟩
      · rw [htell]
        exact done (hmoves.tail (.record _))
      · rw [htell]
        exact stopped hmoves .failed
    · split
      · exact done (.single (.record _))
      · exact done .refl
  · next hdelivery =>
    split
    · exact done .refl
    · next hpayload =>
      exact really (fun real => tell (.reinstall hdelivery (by simpa using hpayload) real))
        fun _ => .single (.record _)

theorem task {task : Task} (h : task ∈ step.tasks work.unit) :
    Goes setting step work (task.run setting work) := by
  cases step with
  | repositories =>
    obtain ⟨identifier, hmem, rfl⟩ := List.mem_map.mp h
    exact addRepository hmem
  | sources =>
    obtain ⟨entry, hmem, rfl⟩ := List.mem_map.mp h
    exact writeSource hmem
  | refreshIndex =>
    obtain rfl := List.mem_singleton.mp h
    exact refreshIndex work
  | preScript =>
    obtain rfl := List.mem_singleton.mp h
    exact runScript work .pre
  | retrieve =>
    obtain rfl := List.mem_singleton.mp h
    exact retrieve work
  | install =>
    obtain rfl := List.mem_singleton.mp h
    exact installPayload work
  | postScript =>
    obtain rfl := List.mem_singleton.mp h
    exact runScript work .post

theorem runTasks {tasks : List Task} (h : ∀ task ∈ tasks, task ∈ step.tasks work.unit) :
    Goes setting step work (Work.runTasks setting tasks work) := by
  induction tasks generalizing work with
  | nil => exact done .refl
  | cons first rest ih =>
    have hfirst : Goes setting step work (first.run setting work) := task (h first List.mem_cons_self)
    unfold Work.runTasks
    split
    · next ran hran =>
      rw [hran] at hfirst
      refine of_moves hfirst.moves (ih fun task hmem => ?_)
      have hsame : step.tasks ran.unit = step.tasks work.unit := by
        rw [← Step.tasks_declared, hfirst.moves.kept.declared, Step.tasks_declared]
      rw [hsame]
      exact h task (List.mem_cons_of_mem _ hmem)
    · next ran stop hran =>
      rw [hran] at hfirst
      exact hfirst

end Goes

end Provision
