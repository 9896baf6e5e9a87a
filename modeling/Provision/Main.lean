import Provision.Arguments.Reading
import Provision.Invocation

/-!
# The command line program

Reads the configuration and the document from disk, does the job and prints. This program starts no
others: a host on which none can be found is what it works with, so `validate` does all of its job,
while `plan` and `install` say which tools they miss and change nothing.
-/

open Provision

namespace Provision.Main

def machine : Machine where
  finds _ := false
  execute _ _ files := { ending := .exited 127, files }
  download url _ files := { result := .error ⟨s!"Failed to download {url}", []⟩, files }

/-- The files that the arguments may lead to. -/
def paths (arguments : Arguments) : List Path :=
  let document := match arguments.job with
    | .validate file => file
    | .plan file _ _ => file
    | .install file _ _ _ => file
  [arguments.config?.getD Configuration.defaultPath, document]

/-- Puts a file of the disk into the model of the disk. One that cannot be read is left out. -/
def fetch (files : Files) (path : Path) : IO Files := do
  try
    let content ← IO.FS.readBinFile path.text
    return ((files.makeParent path).1.write path content).toOption.getD files
  catch _ => return files

def hostname : IO (Except String String) := do
  try
    let text ← IO.FS.readFile "/proc/sys/kernel/hostname"
    return .ok (String.ofList (Text.trim text.toList))
  catch e => return .error (toString e)

def environment (arguments : Arguments) : IO Environment := do
  let place := Path.names ⟨(← IO.currentDir).toString⟩
  return {
    machine
    files := ← (paths arguments).foldlM fetch { cwd := place }
    rootWaiver? := ← IO.getEnv "PACKLIST_SKIP_ROOT_CHECK"
    hostname := ← hostname
    workDirectory := .error "no program can be started" }

end Provision.Main

def main (arguments : List String) : IO UInt32 := do
  match Arguments.parse arguments with
  | .error error =>
    if error.exitCode = 0 then IO.println error.message else IO.eprintln s!"✗ {error.message}"
    return error.exitCode.toUInt32
  | .ok arguments =>
    let done := Invocation.run (← Main.environment arguments) arguments
    let output ← IO.getStdout
    done.output.forM fun piece => output.write piece.bytes
    IO.eprint done.complaint
    return done.code.toUInt32
