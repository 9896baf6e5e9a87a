import Provision.Proofs.Run.Launch
import Provision.Proofs.Run.Scene

/-!
# Refreshes of the package index

A visit that has written a source file owes a refresh of the package index. It makes the refresh in
its next step and goes on only after it. Only a visit that ends before that still owes it, and
nothing that comes later makes up for it.
-/

namespace Provision

namespace Event

def begins : Event → Bool
  | began _ => true
  | _ => false

/-- The index has been refreshed. -/
def refreshes : Event → Bool
  | called .refreshIndex (.ok _) _ => true
  | _ => false

/-- Whether a refresh is owed after an event. -/
def owes (owed : Bool) : Event → Bool
  | began _ => false
  | wroteSource _ => true
  | event => owed && !event.refreshes

end Event

/-- The visit under way has written a source file, and no refresh has followed. -/
def owes (trace : List Event) : Bool := trace.foldl Event.owes false

@[simp] theorem owes_append_singleton (trace : List Event) (event : Event) :
    owes (trace ++ [event]) = event.owes (owes trace) := by
  simp [owes]

/-- While a refresh is owed no package is installed, and no step begins but the one that makes it. -/
def IndexRule (before : List Event) : Event → Prop
  | .called (.reinstall _) _ _ => owes before = false
  | .entered step => owes before = true → step = .refreshIndex
  | _ => True

/-- Nothing is owed, and the rule has been followed. -/
structure Current (trace : List Event) : Prop where
  follows : Follows IndexRule trace
  owes : owes trace = false

theorem Current.snoc {trace : List Event} {event : Event} (h : Current trace)
    (hevent : event.owes false = false) : Current (trace ++ [event]) := by
  have howes := h.owes
  refine ⟨h.follows.snoc ?_, by rw [owes_append_singleton, howes, hevent]⟩
  unfold IndexRule
  split
  · exact howes
  · simp [howes]
  · trivial

section

variable {setting : Setting} {step : Step} {work next : Work}

theorem Move.current (h : Move setting work step next) (hstep : step ≠ .sources)
    (hwork : Current work.session.trace) : Current next.session.trace := by
  rcases h.trace_cases with htrace | ⟨event, htrace, hadds⟩ <;> rw [htrace]
  · exact hwork
  · refine hwork.snoc ?_
    cases hadds with
    | wroteSource => exact absurd rfl hstep
    | called | createdMarker => rfl

theorem current_step (hstep : step ≠ .sources) (hwork : Current work.session.trace) :
    Current (Work.runTasks setting (step.tasks work.unit) (work.enter step)).1.session.trace :=
  (goes_step setting step work).moves.preserves (P := fun work => Current work.session.trace)
    (fun _ _ h hmove => hmove.current hstep h) (hwork.snoc rfl)

theorem current_runSteps {steps : List Step} (hsteps : .sources ∉ steps)
    (hwork : Current work.session.trace) :
    Current (Work.runSteps setting steps work).1.session.trace := by
  induction steps generalizing work with
  | nil => exact hwork
  | cons step rest ih =>
    rw [List.mem_cons, not_or] at hsteps
    rcases runSteps_cons_cases setting step rest work with hran | ⟨ran, stop?, htasks, hran⟩
    · rw [hran]
      exact hwork
    · have hstep := @current_step setting step work (Ne.symm hsteps.1) hwork
      rw [htasks] at hstep
      rw [hran]
      cases stop? with
      | none => exact ih hsteps.2 hstep
      | some stop => exact hstep

/-! ## The step that writes source files, and the refresh after it -/

theorem Move.follows (h : Move setting work step next) (hstep : step ≠ .install)
    (hwork : Follows IndexRule work.session.trace) : Follows IndexRule next.session.trace := by
  rcases h.trace_cases with htrace | ⟨event, htrace, hadds⟩ <;> rw [htrace]
  · exact hwork
  · refine hwork.snoc ?_
    cases hadds with
    | called due =>
      cases due with
      | reinstall => exact absurd rfl hstep
      | _ => trivial
    | wroteSource | createdMarker => trivial

theorem follows_step (hstep : step ≠ .install)
    (howes : owes work.session.trace = true → step = .refreshIndex)
    (hwork : Follows IndexRule work.session.trace) :
    Follows IndexRule
      (Work.runTasks setting (step.tasks work.unit) (work.enter step)).1.session.trace :=
  (goes_step setting step work).moves.preserves
    (P := fun work => Follows IndexRule work.session.trace)
    (fun _ _ h hmove => hmove.follows hstep h) (hwork.snoc howes)

/-- What is owed is known to the unit, in a real run. -/
def Admits (setting : Setting) (work : Work) : Prop :=
  owes work.session.trace = true → work.unit.refreshDue = true ∧ setting.dryRun = false

theorem admits_writeSource {entry : SourceFile} (hwork : Admits setting work)
    (h : work.writeSource setting entry = (next, none)) : Admits setting next := by
  unfold Work.writeSource at h
  split at h
  · cases h
    exact hwork
  · unfold Work.really at h
    split at h
    · cases h
      exact fun howes => ⟨rfl, (hwork howes).2⟩
    · next hreal =>
      split at h
      · cases h
        exact fun _ => ⟨rfl, by simpa using hreal⟩
      · cases h

theorem admits_sources {entries : List SourceFile} (hwork : Admits setting work)
    (h : Work.runTasks setting (entries.map .writeSource) work = (next, none)) :
    Admits setting next := by
  induction entries generalizing work with
  | nil =>
    cases h
    exact hwork
  | cons entry rest ih =>
    rw [List.map_cons, Work.runTasks] at h
    split at h
    · next ran hran => exact ih (admits_writeSource hwork hran) h
    · cases h

theorem owes_refreshIndex (hwork : Admits setting work)
    (h : work.refreshIndex setting = (next, none)) : owes next.session.trace = false := by
  unfold Work.refreshIndex at h
  split at h
  · next hdue =>
    unfold Work.really at h
    split at h
    · next hdry =>
      cases h
      rw [Bool.eq_false_iff]
      intro howes
      rw [(hwork howes).2] at hdry
      cases hdry
    · split at h
      · next told htold =>
        cases h
        rcases Goes.tell_cases setting .refreshIndex .refreshIndex work with
          ⟨answer, htell, before, shown, htrace⟩ | ⟨failure, htell⟩
        · rw [htell] at htold
          cases htold
          change owes (work.called setting .refreshIndex).session.trace = false
          rw [htrace, owes_append_singleton]
          simp [Event.owes, Event.refreshes]
        · rw [htell] at htold
          cases htold
      · cases h
  · next hdue =>
    cases h
    rw [Bool.eq_false_iff]
    exact fun howes => hdue (hwork howes).1

/-- What the sources make owed the refresh settles, or the work ends. -/
theorem current_of_refresh (hwork : Current work.session.trace) :
    Follows IndexRule
        (Work.runSteps setting [.sources, .refreshIndex] work).1.session.trace ∧
      ((Work.runSteps setting [.sources, .refreshIndex] work).2 = none →
        Current (Work.runSteps setting [.sources, .refreshIndex] work).1.session.trace) := by
  rcases runSteps_cons_cases setting .sources [.refreshIndex] work with
    hran | ⟨ran, stop?, htasks, hran⟩
  · rw [hran]
    exact ⟨hwork.follows, fun h => by cases h⟩
  · have hfollows := @follows_step setting .sources work (by simp) (by simp [hwork.owes])
      hwork.follows
    rw [htasks] at hfollows
    rw [hran]
    cases stop? with
    | some stop => exact ⟨hfollows, fun h => by cases h⟩
    | none =>
      have hadmits : Admits setting (work.enter .sources) := by
        intro howes
        simp [Work.enter, Session.note, hwork.owes, Event.owes] at howes
      replace hadmits := admits_sources hadmits htasks
      rcases runSteps_cons_cases setting .refreshIndex [] ran with
        hran | ⟨last, stop?, htasks, hran⟩
      · simp only [hran]
        exact ⟨hfollows, fun h => by cases h⟩
      · have hfollows := @follows_step setting .refreshIndex ran (by simp) (fun _ => rfl) hfollows
        rw [htasks] at hfollows
        simp only [hran]
        cases stop? with
        | some stop => exact ⟨hfollows, fun h => by cases h⟩
        | none =>
          rw [Step.tasks, runTasks_singleton] at htasks
          have henter : Admits setting (ran.enter .refreshIndex) := by
            intro howes
            simp only [Work.enter, Session.note, owes_append_singleton] at howes
            exact hadmits (by simpa [Event.owes, Event.refreshes] using howes)
          exact ⟨hfollows, fun _ => ⟨hfollows, owes_refreshIndex henter htasks⟩⟩

theorem follows_runSteps (hwork : Current work.session.trace) :
    Follows IndexRule (Work.runSteps setting Step.all work).1.session.trace := by
  have hfirst : Current (Work.runSteps setting [.repositories] work).1.session.trace :=
    current_runSteps (by simp) hwork
  rw [show Step.all = [.repositories] ++ ([.sources, .refreshIndex] ++
    [.preScript, .retrieve, .install, .postScript]) from rfl, runSteps_append]
  generalize Work.runSteps setting [.repositories] work = ran at hfirst ⊢
  obtain ⟨ran, _ | stop⟩ := ran
  · obtain ⟨hfollows, hcurrent⟩ := @current_of_refresh setting ran hfirst
    simp only
    rw [runSteps_append]
    generalize Work.runSteps setting [.sources, .refreshIndex] ran = ran at hfollows hcurrent ⊢
    obtain ⟨ran, _ | stop⟩ := ran
    · exact (current_runSteps (by simp) (hcurrent rfl)).follows
    · exact hfollows
  · exact hfirst.follows

/-! ## Visits and tours -/

variable {session : Session} {unit : Installable}

theorem follows_visit (h : Follows IndexRule session.trace) :
    Follows IndexRule (setting.visit session unit).session.trace := by
  have hbegan : Current (session.note (.began unit.name)).trace :=
    ⟨h.snoc trivial, owes_append_singleton _ _⟩
  have hvisited := visited setting session unit
  generalize setting.visit session unit = visit at hvisited ⊢
  cases hvisited with
  | interrupted | skipped => exact hbegan.follows
  | @worked forced final stop? free decided ran =>
    have hfollows : Follows IndexRule
        (Work.runSteps setting Step.all (.begin session unit forced)).1.session.trace :=
      follows_runSteps hbegan
    rwa [ran] at hfollows

theorem follows_tour {strict : Bool} {units : List Installable}
    (h : Follows IndexRule session.trace) :
    Follows IndexRule (tour setting strict units session).session.trace :=
  tour_preserves (P := fun session => Follows IndexRule session.trace)
    (fun _ _ _ => follows_visit) (fun _ _ h => h.snoc trivial) h

end

/-! ## Launches -/

/-- Nothing happens before a visit begins. -/
def Opens (trace : List Event) : Prop := ∀ event, trace.head? = some event → event.begins = true

theorem opens_tour (setting : Setting) (strict : Bool) (units : List Installable) (files : Files)
    (interrupted : Bool) :
    Opens (tour setting strict units { files, interrupted }).session.trace := by
  cases units with
  | nil => simp [Opens, tour]
  | cons unit rest =>
    have hbegan := began_prefix_visit setting { files, interrupted } unit
    obtain ⟨after, hafter⟩ := hbegan.trans (@visit_prefix_tour setting strict _ unit rest)
    rw [← hafter]
    intro event hevent
    obtain rfl : .began unit.name = event := by simpa [Session.note] using hevent
    rfl

theorem owes_append_of_opens {before trace : List Event} (h : Opens trace) (hne : trace ≠ []) :
    owes (before ++ trace) = owes trace := by
  obtain ⟨first, rest, rfl⟩ := List.exists_cons_of_ne_nil hne
  have hbegins := h first rfl
  cases first with
  | began unit => simp [owes, Event.owes]
  | _ => cases hbegins

theorem indexRule_congr {before other : List Event} (h : owes before = owes other)
    (event : Event) : IndexRule before event ↔ IndexRule other event := by
  unfold IndexRule
  rw [h]

theorem indexRule_of_begins {event : Event} (h : event.begins = true) (before : List Event) :
    IndexRule before event := by
  cases event with
  | began unit => trivial
  | _ => cases h

theorem follows_append {first second : List Event} (hfirst : Follows IndexRule first)
    (hsecond : Follows IndexRule second) (hopens : Opens second) :
    Follows IndexRule (first ++ second) := by
  intro before event after hsplit
  rcases List.append_eq_append_iff.mp hsplit with ⟨front, rfl, hback⟩ | ⟨back, hfront, hback⟩
  · by_cases hne : front = []
    · exact indexRule_of_begins (hopens event (by rw [hback, hne]; rfl)) _
    · have howes : owes (first ++ front) = owes front := by
        refine owes_append_of_opens (fun other hother => hopens other ?_) hne
        rw [hback, List.head?_append_of_ne_nil front hne]
        exact hother
      exact (indexRule_congr howes event).mpr (hsecond front event after hback)
  · cases back with
    | nil =>
      have hfirst : second.head? = some event := by
        rw [← List.nil_append second, ← hback]
        rfl
      exact indexRule_of_begins (hopens event hfirst) _
    | cons other back =>
      obtain ⟨rfl, -⟩ := List.cons.inj hback
      exact hfirst before event back hfront

/-- The visit under way makes no more step than the refresh, and then the next visit begins. -/
def CutShort (trace : List Event) : Prop :=
  ∃ rest unit later, trace = rest ++ .began unit :: later ∧ (∀ other, .began other ∉ rest) ∧
    ∀ step, .entered step ∈ rest → step = .refreshIndex

theorem foldl_owes {trace : List Event}
    (h : ∀ event ∈ trace, event.begins = false ∧ event.refreshes = false) :
    trace.foldl Event.owes true = true := by
  induction trace with
  | nil => rfl
  | cons event rest ih =>
    rw [List.forall_mem_cons] at h
    have hevent : event.owes true = true := by
      cases event with
      | began unit => simp [Event.begins] at h
      | called call result shown => simp [Event.owes, h.1.2]
      | _ => rfl
    rw [List.foldl_cons, hevent]
    exact ih h.2

theorem owes_of_wroteSource {front trace : List Event} {path : Path}
    (h : ∀ event ∈ trace, event.begins = false ∧ event.refreshes = false) :
    owes (front ++ .wroteSource path :: trace) = true := by
  rw [owes, List.foldl_append, List.foldl_cons]
  exact foldl_owes h

/-- Before a package is installed the index is refreshed, unless the visit that wrote the source
file was cut short. -/
theorem refreshed_or_cutShort {front back after : List Event} {path : Path} {package : String}
    {result : Except Failure String} {shown : ByteArray}
    (h : Follows IndexRule (front ++ .wroteSource path ::
      (back ++ .called (.reinstall package) result shown :: after))) :
    (∃ event ∈ back, event.refreshes = true) ∨ CutShort back := by
  by_cases hrefreshed : ∃ event ∈ back, event.refreshes = true
  · exact .inl hrefreshed
  · have hnone : ∀ event ∈ back, event.refreshes = false := by simpa using hrefreshed
    have hsettled : owes (front ++ .wroteSource path :: back) = false :=
      h (front ++ .wroteSource path :: back) (.called (.reinstall package) result shown) after
        (by simp)
    cases hfirst : back.find? Event.begins with
    | none =>
      rw [List.find?_eq_none] at hfirst
      rw [owes_of_wroteSource fun event hevent =>
        ⟨by simpa using hfirst event hevent, hnone event hevent⟩] at hsettled
      cases hsettled
    | some first =>
      obtain ⟨hbegins, rest, later, rfl, hrest⟩ := List.find?_eq_some_iff_append.mp hfirst
      cases first with
      | began unit =>
        refine .inr ⟨rest, unit, later, rfl, fun other hother => ?_, fun step hstep => ?_⟩
        · simpa [Event.begins] using hrest _ hother
        · obtain ⟨before, behind, rfl⟩ := List.append_of_mem hstep
          have hrule := h (front ++ .wroteSource path :: before) (.entered step) (behind ++
            .began unit :: (later ++ .called (.reinstall package) result shown :: after)) (by simp)
          refine hrule (owes_of_wroteSource fun event hevent => ⟨?_, hnone event (by simp [hevent])⟩)
          simpa using hrest event (by simp [hevent])
      | _ => cases hbegins

namespace Launch

variable {sourcesDir : Path}

theorem exists_tour {launch : Launch} (h : launch.OfDocument sourcesDir) (files : Files) :
    ∃ units, launch.trace files = (tour launch.setting launch.strict units
      { files, interrupted := launch.interrupted }).session.trace := by
  have hbucket : ∀ entry ∈ launch.catalog.entries, entry.unit.OneBucket := fun entry hentry =>
    (h.wellFormed entry.unit (List.mem_map_of_mem hentry)).one_bucket
  have hran := RunState.run_ledBy launch.setting launch.strict
    { progress := launch.progress, catalog := launch.catalog
      session := { files, interrupted := launch.interrupted } } hbucket
  exact ⟨_, congrArg Session.trace hran.session⟩

theorem follows_history {launches : List Launch}
    (h : ∀ launch ∈ launches, launch.OfDocument sourcesDir) (files : Files) :
    Follows IndexRule (history files launches) ∧ Opens (history files launches) := by
  induction launches generalizing files with
  | nil => exact ⟨follows_nil _, by simp [Opens, history]⟩
  | cons launch rest ih =>
    rw [List.forall_mem_cons] at h
    obtain ⟨units, htrace⟩ := exists_tour h.1 files
    obtain ⟨hfollows, hopens⟩ := ih h.2 (launch.after files)
    rw [history, htrace]
    refine ⟨follows_append (follows_tour (follows_nil _)) hfollows hopens, ?_⟩
    have hfirst := opens_tour launch.setting launch.strict units files launch.interrupted
    generalize (tour launch.setting launch.strict units
      { files, interrupted := launch.interrupted }).session.trace = trace at hfirst ⊢
    cases trace with
    | nil => exact hopens
    | cons event trace => exact hfirst

/-- Between a source file that is written and a package that is installed the index is refreshed, or
the visit that wrote the file has not got beyond its refresh. -/
def Refreshed (trace : List Event) : Prop :=
  ∀ front path back package result shown after, trace = front ++ .wroteSource path ::
      (back ++ .called (.reinstall package) result shown :: after) →
    (∃ event ∈ back, event.refreshes = true) ∨ CutShort back

/-- However often documents are run, no package is installed with an index that is out of date,
unless the visit that brought it out of date was cut short. -/
theorem refreshed_of_runs {launches : List Launch}
    (h : ∀ launch ∈ launches, launch.OfDocument sourcesDir) (files : Files) :
    Refreshed (history files launches) := by
  intro front path back package result shown after htrace
  have hfollows := (follows_history h files).1
  rw [htrace] at hfollows
  exact refreshed_or_cutShort hfollows

/-! ## A refresh that failed -/

/-- A run of a unit that brings a source file along. -/
def ofSource (online : Bool) : Launch where
  setting :=
    { collaborators := ⟨fun _ call files =>
        { result := if call = .refreshIndex && !online then .error ⟨"no network", []⟩ else .ok ""
          files }⟩
      hostname := "host" }
  catalog := ⟨[⟨1, { name := "a", sources := [⟨⟨"sources/x.list"⟩, "deb http://x"⟩] }⟩]⟩

theorem parse_ofSource (online : Bool) :
    Document.parse ⟨"sources"⟩ "a:\n  source: x.list deb http://x\n".toList =
      .ok (ofSource online).catalog := by
  cases online <;> decide +kernel

theorem refreshed_of_two_runs :
    (∀ launch ∈ [ofSource false, ofSource true], launch.OfDocument ⟨"sources"⟩) ∧
      Refreshed (history {} [ofSource false, ofSource true]) := by
  have h : ∀ launch ∈ [ofSource false, ofSource true], launch.OfDocument ⟨"sources"⟩ := by
    simpa using And.intro ⟨_, parse_ofSource false⟩ ⟨_, parse_ofSource true⟩
  exact ⟨h, refreshed_of_runs h {}⟩

-- There may be a second instance for byte arrays in scope, which decides more slowly.
local instance (priority := high) decidableEqShown : DecidableEq ByteArray :=
  ByteArray.instDecidableEq

deriving instance DecidableEq for Event

/-- A refresh that has failed is not made up for: the next run finds the source file, and installs
the package without a refresh. -/
theorem stale_install_after_failed_refresh :
    Document.parse ⟨"sources"⟩ "a:\n  source: x.list deb http://x\n".toList =
      .ok (ofSource false).catalog ∧ (ofSource false).setting.dryRun = false ∧
    Document.parse ⟨"sources"⟩ "a:\n  source: x.list deb http://x\n".toList =
      .ok (ofSource true).catalog ∧ (ofSource true).setting.dryRun = false ∧
    (ofSource true).units.map (fun unit => (unit.package, unit.sources.map SourceFile.path)) =
      [("a", [⟨"sources/x.list"⟩])] ∧
    history {} [ofSource false, ofSource true] =
      [.began "a", .entered .repositories, .entered .sources] ++ .wroteSource ⟨"sources/x.list"⟩ ::
      ([.entered .refreshIndex,
        .called .refreshIndex (.error ⟨"no network", []⟩) ByteArray.empty,
        .reported ⟨"a", .main, .failed ⟨.refreshIndex, "no network"⟩,
          ["write source file sources/x.list"]⟩,
        .began "a", .entered .repositories, .entered .sources, .entered .refreshIndex,
        .entered .preScript, .entered .retrieve, .entered .install] ++
      .called (.reinstall "a") (.ok "") ByteArray.empty ::
      [.entered .postScript, .reported ⟨"a", .main, .completed, ["install package a"]⟩]) :=
  ⟨parse_ofSource false, rfl, parse_ofSource true, rfl, by decide +kernel, by decide +kernel⟩

end Launch

end Provision
