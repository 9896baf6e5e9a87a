import Provision.Shell.Run
import Provision.Tools

/-!
# Rehearsals

A machine that only acts its part: rules say what the package tools print and how they end, and the
shell is the one of this library. With it a document can be run where nothing may be installed.
-/

namespace Provision

/-- What a command does if its words, joined by blanks, begin with `call`. -/
structure Rule where
  call : String
  stdout : ByteArray := ByteArray.empty
  stderr : ByteArray := ByteArray.empty
  ending : Ending := .exited 0

structure Rehearsal where
  /-- The first rule that applies decides; without one a command succeeds and prints nothing. -/
  rules : List Rule := []
  /-- Programs that cannot be found. -/
  absent : List String := []

namespace Rehearsal

/-- The package tools that take part. -/
def tools : List String := ["add-apt-repository", "apt-get", "dpkg", "dpkg-deb", "dpkg-query"]

def rule? (rehearsal : Rehearsal) (command : Command) : Option Rule :=
  rehearsal.rules.find? fun rule =>
    rule.call.toList.isPrefixOf (" ".intercalate command.words).toList

def finds (rehearsal : Rehearsal) (program : String) : Bool :=
  (program == Machine.shell || tools.contains program) && !rehearsal.absent.contains program

/-- Nothing can be downloaded. -/
def machine (rehearsal : Rehearsal) : Machine where
  finds := rehearsal.finds
  execute _ command files :=
    if command.program = Machine.shell then
      match command.arguments with
      | ["-c", text] => Shell.run rehearsal.finds text files
      | _ => { ending := .exited 2, files }
    else match rehearsal.rule? command with
      | some rule => { ending := rule.ending, stdout := rule.stdout, stderr := rule.stderr, files }
      | none => { ending := .exited 0, files }
  download url _ files := { result := .error ⟨s!"Failed to download {url}", []⟩, files }

end Rehearsal

end Provision
