import Provision.Decision
import Provision.Download
import Provision.Machine
import Provision.Run.Session
import Provision.Sorted
import Provision.Text.Utf8

/-!
# The tools of the host

Which commands serve the calls of a run: the package manager, the archive tools, the repository tool
and the shell. The tools that only answer a question are listened to; the output of the others goes
to the user.
-/

namespace Provision

open Text

/-- A command and its names in messages. -/
structure Tool where
  command : Command
  /-- Its name if it cannot be started. -/
  what : String
  /-- Its name if it fails. -/
  context : String

namespace Tool

/-- Lists every package that is known, with a tab before its state. -/
def listPackages : Tool where
  command := ⟨"dpkg-query", ["-W", "-f", "$\x7bPackage\x7d\t$\x7bdb:Status-Abbrev\x7d\n"], false⟩
  what := "dpkg-query"
  context := "dpkg-query"

def nameOf (archive : Path) : Tool where
  command := ⟨"dpkg-deb", ["--field", archive.text, "Package"], false⟩
  what := "dpkg-deb"
  context := "dpkg-deb --field"

def installArchive (archive : Path) : Tool where
  command := ⟨"dpkg", ["-i", archive.text], true⟩
  what := "dpkg -i"
  context := s!"dpkg -i {archive.text}"

def reinstall (package : String) : Tool where
  command := ⟨"apt-get", ["install", "--reinstall", "-y", package], true⟩
  what := "apt-get install"
  context := s!"apt-get install {package}"

def refreshIndex : Tool where
  command := ⟨"apt-get", ["update"], true⟩
  what := "apt-get update"
  context := "apt-get update"

/-- The index is refreshed by a call of its own. -/
def addRepository (identifier : String) : Tool where
  command := ⟨"add-apt-repository", ["-y", "--no-update", identifier], false⟩
  what := "add-apt-repository"
  context := s!"add-apt-repository {identifier}"

def runScript (shell text : String) : Tool where
  command := ⟨shell, ["-c", text], false⟩
  what := "script"
  context := "script"

/-- Runs a tool whose output goes to the user. -/
def perform (tool : Tool) (machine : Machine) (earlier : List Command) (files : Files) :
    Response Unit :=
  match machine.start tool.what earlier tool.command files with
  | .error failure => { result := .error failure, files }
  | .ok done =>
    { result := done.ending.require tool.context
      files := done.files
      shown := done.stdout
      signals := done.signals }

/-- Runs a tool and reads its output. -/
def consult {α : Type} (tool : Tool) (read : String → Except Failure α) (machine : Machine)
    (earlier : List Command) (files : Files) : Response α :=
  match machine.start tool.what earlier tool.command files with
  | .error failure => { result := .error failure, files }
  | .ok done =>
    let checked := done.ending.requireQuiet tool.context (Utf8.decode done.stderr)
    { result := checked.bind fun _ => read (Utf8.decode done.stdout)
      files := done.files
      signals := done.signals }

end Tool

/-! ## What the tools say -/

/-- The name on a line of the package list, if the package is fully installed. -/
def installedName? (line : List Char) : Option String :=
  match cut? (· = '\t') line with
  | some (name, state) =>
    let name := trim name
    if ['i', 'i'].isPrefixOf state && !name.isEmpty then some (String.ofList name) else none
  | none => none

/-- The sorted names of the installed packages on a package list. -/
def installedNames (listing : String) : List String :=
  Sorted.ofList ((physicalLines listing.toList).filterMap installedName?)

/-- The name that an archive's package field holds. -/
def packageField (archive : Path) (output : String) : Except Failure String :=
  let name := trim output.toList
  if name.isEmpty then .error ⟨s!"{archive.text} has no Package field", []⟩
  else .ok (String.ofList name)

/-! ## Serving a run -/

/-- How a call is served. -/
inductive Service where
  | download (url : String)
  | consult (tool : Tool) (archive : Path)
  | perform (tool : Tool)

namespace Service

def ofCall (shell : String) : Call → Service
  | .addRepository identifier => perform (.addRepository identifier)
  | .refreshIndex => perform .refreshIndex
  | .runScript text => perform (.runScript shell text)
  | .fetch url => download url
  | .nameOf archive => consult (.nameOf archive) archive
  | .installArchive archive => perform (.installArchive archive)
  | .reinstall package => perform (.reinstall package)

/-- A download is no command. -/
def command? : Service → Option Command
  | download _ => none
  | consult tool _ => some tool.command
  | perform tool => some tool.command

end Service

namespace Machine

def installed (machine : Machine) (earlier : List Command) (files : Files) :
    Response (List String) :=
  Tool.listPackages.consult (fun listing => .ok (installedNames listing)) machine earlier files

/-- Asks once which packages are installed. -/
def snapshot (machine : Machine) (earlier : List Command) (files : Files) : Response Snapshot :=
  let response := machine.installed earlier files
  { result := match response.result with
      | .ok packages => .ok ⟨packages⟩
      | .error failure => .error (failure.within "Failed to query installed packages")
    files := response.files
    signals := response.signals }

/-- Serves a call. Downloads are kept in the directory `work`. -/
def serve (machine : Machine) (shell : String) (work : Path) (earlier : List Command) (call : Call)
    (files : Files) : Response String :=
  match Service.ofCall shell call with
  | .download url =>
    let target := work.join (String.ofList (Download.fileName url.toList))
    let fetching := machine.download url target files
    { result := fetching.result.map fun _ => target.text
      files := fetching.files
      signals := fetching.signals }
  | .consult tool archive => tool.consult (packageField archive) machine earlier files
  | .perform tool =>
    let response := tool.perform machine earlier files
    { response with result := response.result.map fun _ => "" }

/-- The shell that runs scripts. -/
def shell : String := "bash"

/-- The commands of a run: first the question for the snapshot, then those of its calls. -/
def commandsOf (calls : List Call) : List Command :=
  Tool.listPackages.command :: calls.filterMap fun call => (Service.ofCall shell call).command?

/-- The machine as the collaborators of a run that has taken its snapshot. -/
def collaborators (machine : Machine) (work : Path) : Collaborators where
  respond earlier call files := machine.serve shell work (commandsOf earlier) call files

end Machine

end Provision
