import Provision.Arguments.Command
import Provision.Configuration
import Provision.Plan
import Provision.Preflight
import Provision.Run.Stage
import Provision.Tools

/-!
# Invocations of the program

What the program does with its arguments on a host: what it prints, which commands it gives, what
becomes of the files, and the code that it ends with. A run that ends early still prints the summary
of what it has done, unless a second signal ends the program at once.
-/

namespace Provision

/-- What the program finds where it runs. -/
structure Environment where
  machine : Machine
  files : Files := {}
  isRoot : Bool := false
  /-- The environment variable that waives the root check. -/
  rootWaiver? : Option String := none
  /-- The name of the machine, or why it cannot be read. -/
  hostname : Except String String
  /-- A fresh directory for downloads, or why there is none. -/
  workDirectory : Except String Path

/-- A piece of standard output: a line of the program itself, or what a tool has written. -/
inductive Output where
  | line (text : String)
  | tool (bytes : ByteArray)

namespace Output

def bytes : Output → ByteArray
  | line text => (text ++ "\n").toUTF8
  | tool bytes => bytes

/-- What is shown of an event. A dry run shows what it would have done. -/
def ofEvent (dryRun : Bool) : Event → List Output
  | .called _ _ shown => [tool shown]
  | .reported result =>
    line result.line ::
      if dryRun then result.actions.map fun action => line s!"    would {action}" else []
  | _ => []

end Output

/-- The end of the program. -/
structure Termination where
  code : Nat
  output : List Output := []
  error? : Option RunError := none
  files : Files
  /-- The commands that were given, first one first. -/
  commands : List Command := []
  /-- The directory for downloads is still there. -/
  leavesWork : Bool := false

namespace Termination

/-- What the program writes to its error output. -/
def complaint (termination : Termination) : String :=
  match termination.error? with
  | some error => s!"✗ {error.message}\n"
  | none => ""

def failed (error : RunError) (files : Files) : Termination :=
  { code := error.exitCode, error? := some error, files }

/-- Adds the question for the snapshot, which has been put before all else. -/
def afterSnapshot (termination : Termination) : Termination :=
  { termination with commands := Machine.commandsOf [] }

/-- A signal ends the program while it waits for the snapshot. -/
def whileAsking (signal : Signal) (files : Files) : Termination :=
  afterSnapshot { code := signal.exitCode, files }

/-- A signal ends the program in a run: all that it has done stays, and it does nothing more. -/
def abrupt (dryRun : Bool) (ending : AbruptEnd) : Termination :=
  { code := ending.signal.exitCode
    output := ending.trace.flatMap (Output.ofEvent dryRun)
    files := ending.files
    commands := Machine.commandsOf (ending.trace.filterMap Event.call?)
    leavesWork := true }

end Termination

/-! ## What the jobs need -/

def readDocument (files : Files) (file sourcesDir : Path) : Except RunError Catalog := do
  let text ← (files.readText file).mapError fun fault => .io fault.message
  (Document.parse sourcesDir text.toList).mapError (.document file.text)

namespace Environment

def hostnameFor (environment : Environment) (select : SelectOptions) : Except RunError String :=
  match select.hostname? with
  | some name => .ok name
  | none => environment.hostname.mapError fun reason =>
      .environment s!"Failed to read hostname: {reason}"

def preflight (environment : Environment) (config : Configuration) : Preflight :=
  .ofHost environment.machine.finds environment.isRoot
    !(Preflight.waivesRoot environment.rootWaiver? config.skipRootCheck)

/-- The directory for downloads. A real run needs a host that passes the preflight check. -/
def prepare (environment : Environment) (config : Configuration) (dryRun : Bool) :
    Except RunError Path :=
  let check := environment.preflight config
  if !dryRun && !check.passes then .error (.environment check.describe)
  else environment.workDirectory.mapError fun reason =>
    .environment s!"Failed to create work directory: {reason}"

end Environment

/-! ## Jobs -/

namespace Invocation

def validate (environment : Environment) (config : Configuration) (file : Path) : Termination :=
  match readDocument environment.files file config.sourcesDir with
  | .error error => .failed error environment.files
  | .ok catalog =>
    { code := 0
      output := [.line s!"✓ {file.text}: {catalog.size} unit(s)"]
      files := environment.files }

def planOutput (json : Bool) (rows : List PlanRow) : List Output :=
  if json then [.line ((Json.list (rows.map PlanRow.json)).pretty 0)]
  else rows.map fun row => .line row.text

def plan (environment : Environment) (config : Configuration) (file : Path)
    (select : SelectOptions) (json : Bool) : Termination :=
  match readDocument environment.files file (select.sourcesDir?.getD config.sourcesDir) with
  | .error error => .failed error environment.files
  | .ok catalog =>
    let asked := environment.machine.snapshot [] environment.files
    match Signal.fatal? false asked.signals with
    | some signal => .whileAsking signal asked.files
    | none => Termination.afterSnapshot <| match asked.result with
      | .error failure => .failed (.environment failure.text) asked.files
      | .ok snapshot =>
        match environment.hostnameFor select with
        | .error error => .failed error asked.files
        | .ok hostname =>
          let entries := Provision.plan catalog select.criteria snapshot hostname
          { code := 0, output := planOutput json entries, files := asked.files }

/-- The code of a run that has come to its end. -/
def runCode : Except RunError Report → Nat
  | .ok report => if report.hasFailures then 1 else 0
  | .error error => error.exitCode

/-- Runs the units of a document and sums up, whether the run is finished or not. -/
def execute (setting : Setting) (strict : Bool) (state : RunState) : Termination :=
  let (ran, result) := state.run setting strict
  match ran.session.abruptEnd? with
  | some ending => .abrupt setting.dryRun ending
  | none =>
    { code := runCode result
      output := ran.session.trace.flatMap (Output.ofEvent setting.dryRun) ++
        [.line "", .line ran.progress.report.summary]
      error? := match result with
        | .error error => some error
        | .ok _ => none
      files := ran.session.files
      commands := Machine.commandsOf ran.session.calls }

def install (environment : Environment) (config : Configuration) (dryRun : Bool) (file : Path)
    (select : SelectOptions) (strict : Bool) (markers : MarkerStore) : Termination :=
  let loaded := do
    let catalog ←
      readDocument environment.files file (select.sourcesDir?.getD config.sourcesDir)
    return (catalog, ← environment.prepare config dryRun)
  match loaded with
  | .error error => .failed error environment.files
  | .ok (catalog, work) =>
    let asked := environment.machine.snapshot [] environment.files
    match Signal.fatal? false asked.signals, asked.result with
    | some signal, _ => { Termination.whileAsking signal asked.files with leavesWork := true }
    | none, .error failure => .afterSnapshot (.failed (.environment failure.text) asked.files)
    | none, .ok snapshot =>
      match environment.hostnameFor select with
      | .error error => .afterSnapshot (.failed error asked.files)
      | .ok hostname =>
        let setting : Setting :=
          { collaborators := environment.machine.collaborators work
            criteria := select.criteria, snapshot, markers, hostname, dryRun }
        let session : Session := { files := asked.files, interrupted := asked.interrupt }
        execute setting strict { catalog, session }

/-- Does the job of the arguments with the configuration that they name. -/
def run (environment : Environment) (arguments : Arguments) : Termination :=
  match Configuration.load environment.files arguments.config? with
  | .error error => .failed (.configuration error.failure.text) environment.files
  | .ok config =>
    match arguments.job with
    | .validate file => validate environment config file
    | .plan file select json => plan environment config file select json
    | .install file select stopOnError markerRoot? =>
      install environment config arguments.dryRun file select (stopOnError || config.stopOnError)
        ⟨markerRoot?.getD config.markerRoot⟩

end Invocation

end Provision
