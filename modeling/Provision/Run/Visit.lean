import Provision.Run.Marker
import Provision.Run.Session

/-!
# Visits

A unit that is to be installed goes through seven steps. A step is a list of tasks; the first task
that does not succeed ends the work. A dry run takes the same way but asks and writes nothing, and
an interrupt ends the work between two steps.
-/

namespace Provision

/-- What stays the same during a run. -/
structure Setting where
  collaborators : Collaborators
  criteria : Criteria := {}
  snapshot : Snapshot := {}
  markers : MarkerStore := {}
  hostname : String
  dryRun : Bool := false

inductive Action where
  | addRepository (identifier : String)
  | writeSource (path : Path)
  | refreshIndex
  | runScript (phase : Phase)
  | createMarker (path : Path)
  | download (url : String)
  | installArchive (path : Path)
  | installDownloaded
  | installPackage (package : String)
deriving DecidableEq

def Action.describe : Action → String
  | addRepository identifier => s!"add repository {identifier}"
  | writeSource path => s!"write source file {path.text}"
  | refreshIndex => "refresh package index"
  | runScript phase => s!"run {phase.describe} script"
  | createMarker path => s!"create semaphore {path.text}"
  | download url => s!"download {url}"
  | installArchive path => s!"install archive {path.text}"
  | installDownloaded => "install downloaded archive"
  | installPackage package => s!"install package {package}"

/-- Why work ends before its last step. -/
inductive Stop where
  | skipped (cause : SkipCause)
  | failed (fault : StepFault)
  | fatal (error : RunError)
deriving DecidableEq

/-- The work on a unit so far, and what it has changed. -/
structure Work where
  unit : Installable
  session : Session
  forced : Bool := false
  actions : List Action := []

namespace Work

def record (work : Work) (action : Action) : Work :=
  { work with actions := work.actions ++ [action] }

/-- The package index is out of date from here on. -/
def needRefresh (work : Work) : Work := { work with unit := { work.unit with refreshDue := true } }

def fail (step : Step) (failure : Failure) : Stop := .failed ⟨step, failure.text⟩

/-- Makes a call; a call that fails is the failure of the step. -/
def ask (setting : Setting) (step : Step) (call : Call) (work : Work) :
    Work × Except Stop String :=
  match work.session.request setting.collaborators call with
  | (session, .ok answer) => ({ work with session }, .ok answer)
  | (session, .error failure) => ({ work with session }, .error (fail step failure))

/-- Makes a call that is answered by success alone. -/
def tell (setting : Setting) (step : Step) (call : Call) (work : Work) : Work × Option Stop :=
  match work.ask setting step call with
  | (asked, .ok _) => (asked, none)
  | (asked, .error stop) => (asked, some stop)

/-- A real run does `act`, then `done`; a dry run does only `done`, which has no effect outside. -/
def really (setting : Setting) (act : Work → Work × Option Stop) (done : Work → Work)
    (work : Work) : Work × Option Stop :=
  if setting.dryRun then (done work, none)
  else match act work with
    | (acted, none) => (done acted, none)
    | (acted, some stop) => (acted, some stop)

/-! ## Tasks -/

/-- Writes a source file, and the directories that are to hold it. -/
def putSource (entry : SourceFile) (work : Work) : Work × Option Stop :=
  match work.session.files.makeParent entry.path with
  | (files, some fault) =>
    ({ work with session := { work.session with files } }, some (fail .sources ⟨fault.message, []⟩))
  | (made, none) =>
    match made.write entry.path entry.bytes with
    | .ok files =>
      ({ work with session := { work.session with files }.note (.wroteSource entry.path) }, none)
    | .error fault =>
      ({ work with session := { work.session with files := made } },
        some (fail .sources ⟨s!"Failed to write {entry.path.text}", [fault.message]⟩))

/-- A marker that cannot be left behind ends the whole run. -/
def leaveMarker (setting : Setting) (phase : Phase) (work : Work) : Work × Option Stop :=
  match setting.markers.create work.session.files work.unit.name phase with
  | (files, .ok path) =>
    ({ work with session := { work.session with files }.note (.createdMarker path) }, none)
  | (files, .error failure) =>
    ({ work with session := { work.session with files } },
      some (.fatal (.environment failure.text)))

def addRepository (setting : Setting) (identifier : String) : Work → Work × Option Stop :=
  really setting (tell setting .repositories (.addRepository identifier))
    fun work => (work.record (.addRepository identifier)).needRefresh

/-- A file that is there already is left alone. -/
def writeSource (setting : Setting) (entry : SourceFile) (work : Work) : Work × Option Stop :=
  if work.session.files.exists? entry.path then (work, none)
  else work.really setting (putSource entry)
    fun work => (work.record (.writeSource entry.path)).needRefresh

def refreshIndex (setting : Setting) (work : Work) : Work × Option Stop :=
  if work.unit.refreshDue then
    work.really setting (tell setting .refreshIndex .refreshIndex) (record · .refreshIndex)
  else (work, none)

/-- A script that has left its marker is not run again. -/
def runScript (setting : Setting) (phase : Phase) (work : Work) : Work × Option Stop :=
  match work.unit.script? phase with
  | none => (work, none)
  | some text =>
    let once := work.unit.isOnce phase
    let name := work.unit.name
    if once && setting.markers.has work.session.files name phase then (work, none)
    else
      let act (work : Work) : Work × Option Stop :=
        match work.tell setting (.ofPhase phase) (.runScript text) with
        | (told, none) => if once then told.leaveMarker setting phase else (told, none)
        | (told, some stop) => (told, some stop)
      work.really setting act fun work =>
        let ran := work.record (.runScript phase)
        if once then ran.record (.createMarker (setting.markers.path name phase)) else ran

/--
Downloads the archive of a unit that has one. The name inside the archive may be that of a package
that is installed, which is known only now.
-/
def retrieve (setting : Setting) (work : Work) : Work × Option Stop :=
  match work.unit.url? with
  | none => (work, none)
  | some url =>
    if setting.snapshot.has work.unit.package && !work.forced then (work, none)
    else if setting.dryRun then (work.record (.download url), none)
    else match work.ask setting .retrieve (.fetch url) with
      | (asked, .error stop) => (asked, some stop)
      | (asked, .ok text) =>
        let archive : Path := ⟨text⟩
        match (asked.record (.download url)).ask setting .retrieve (.nameOf archive) with
        | (named, .error stop) => (named, some stop)
        | (named, .ok package) =>
          if !named.forced && setting.snapshot.has package then
            (named, some (.skipped (.archiveInstalled package)))
          else ({ named with unit := { named.unit with archive? := some archive } }, none)

/-- An archive that an earlier visit has fetched is installed whether the run is dry or not. -/
def installPayload (setting : Setting) (work : Work) : Work × Option Stop :=
  match work.unit.delivery with
  | .downloadedArchive =>
    match work.unit.archive? with
    | some archive =>
      match work.tell setting .install (.installArchive archive) with
      | (told, none) => (told.record (.installArchive archive), none)
      | (told, some stop) => (told, some stop)
    | none => (if setting.dryRun then work.record .installDownloaded else work, none)
  | .packageManager =>
    if work.unit.has .virtual then (work, none)
    else
      let package := work.unit.package
      work.really setting (tell setting .install (.reinstall package))
        (record · (.installPackage package))

end Work

/-! ## Steps -/

inductive Task where
  | addRepository (identifier : String)
  | writeSource (entry : SourceFile)
  | refreshIndex
  | runScript (phase : Phase)
  | retrieve
  | installPayload

def Task.run (setting : Setting) : Task → Work → Work × Option Stop
  | addRepository identifier => Work.addRepository setting identifier
  | writeSource entry => Work.writeSource setting entry
  | refreshIndex => Work.refreshIndex setting
  | runScript phase => Work.runScript setting phase
  | retrieve => Work.retrieve setting
  | installPayload => Work.installPayload setting

/-- The tasks of a step, in order. -/
def Step.tasks (unit : Installable) : Step → List Task
  | repositories => unit.repositories.map .addRepository
  | sources => unit.sources.map .writeSource
  | refreshIndex => [.refreshIndex]
  | preScript => [.runScript .pre]
  | retrieve => [.retrieve]
  | install => [.installPayload]
  | postScript => [.runScript .post]

namespace Work

def runTasks (setting : Setting) : List Task → Work → Work × Option Stop
  | [], work => (work, none)
  | task :: rest, work =>
    match task.run setting work with
    | (ran, none) => runTasks setting rest ran
    | (ran, some stop) => (ran, some stop)

/-- An interrupt that has arrived outdoes the failure of a step, which it may have caused. -/
def settle (work : Work) : Stop → Stop
  | .failed fault => if work.session.interrupted then .fatal .interrupted else .failed fault
  | stop => stop

def enter (step : Step) (work : Work) : Work :=
  { work with session := work.session.note (.entered step) }

def runSteps (setting : Setting) : List Step → Work → Work × Option Stop
  | [], work => (work, none)
  | step :: rest, work =>
    if work.session.interrupted then (work, some (.fatal .interrupted))
    else match runTasks setting (step.tasks work.unit) (work.enter step) with
    | (ran, none) => runSteps setting rest ran
    | (ran, some stop) => (ran, some (ran.settle stop))

end Work

/-- The end of a visit to a unit. -/
structure Visit where
  unit : Installable
  session : Session
  result : Except RunError UnitResult

def Installable.result (unit : Installable) (outcome : Outcome) (actions : List Action) :
    UnitResult :=
  { name := unit.name, bucket := unit.bucket, outcome, actions := actions.map Action.describe }

/-- What is reported about a unit when the work on it ends. -/
def Work.conclude (unit : Installable) (work : Work) : Option Stop → Except RunError UnitResult
  | none => .ok (unit.result .completed work.actions)
  | some (.skipped cause) => .ok (unit.result (.skipped cause) work.actions)
  | some (.failed fault) => .ok (unit.result (.failed fault) work.actions)
  | some (.fatal error) => .error error

/-- Decides about a unit and, if it is to be installed, runs it through its steps. -/
def Setting.visit (setting : Setting) (session : Session) (unit : Installable) : Visit :=
  let session := session.note (.began unit.name)
  if session.interrupted then ⟨unit, session, .error .interrupted⟩
  else match setting.criteria.judge unit setting.snapshot setting.hostname with
    | .skip cause => ⟨unit, session, .ok (unit.result (.skipped cause) [])⟩
    | .install forced =>
      let (work, stop?) := Work.runSteps setting Step.all { unit, session, forced }
      ⟨work.unit, work.session, work.conclude unit stop?⟩

end Provision
