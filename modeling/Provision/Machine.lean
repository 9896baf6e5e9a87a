import Provision.Failure
import Provision.Files
import Provision.Signal
import Provision.Text.Blank
import Provision.Text.Escape

/-!
# Machines

A machine has programs and runs commands. A command that cannot be started fails with the reason,
and a command that was started fails if it does not end well.
-/

namespace Provision

/-! ## How a command ends -/

structure Ending where
  succeeded : Bool
  /-- None if a signal ended the command. -/
  code? : Option Int
deriving DecidableEq

namespace Ending

/-- Of an exit code only the lowest byte is seen. -/
def exited (code : Int) : Ending := ⟨code % 256 == 0, some (code % 256)⟩

def killed : Ending := ⟨false, none⟩

def describe (ending : Ending) : String :=
  match ending.code? with
  | some code => s!"exit code {code}"
  | none => "terminated by signal"

/-- Fails unless the command succeeded; `context` names it. -/
def require (ending : Ending) (context : String) : Except Failure Unit :=
  if ending.succeeded then .ok () else .error ⟨s!"{context} failed ({ending.describe})", []⟩

/-- Fails as `require` does, and shows what the command wrote to its error output. -/
def requireQuiet (ending : Ending) (context errors : String) : Except Failure Unit :=
  if ending.succeeded then .ok ()
  else
    let shown := String.ofList (Text.trim errors.toList)
    .error ⟨s!"{context} failed ({ending.describe}): {shown}", []⟩

end Ending

/-! ## Commands -/

structure Command where
  program : String
  arguments : List String
  /-- The program must not put questions to the user. -/
  unattended : Bool := false
deriving DecidableEq

namespace Command

def words (command : Command) : List String := command.program :: command.arguments

/-- A NUL ends a word where programs are started. -/
def holdsNul (word : String) : Bool := word.toList.contains (Char.ofNat 0)

def isPlain (command : Command) : Bool := !command.words.any holdsNul

/-- The program as messages name it. -/
def shownProgram (command : Command) : String :=
  Text.quoted (if holdsNul command.program then "<string-with-nul>" else command.program)

end Command

/-- What a command leaves behind. -/
structure Completion where
  ending : Ending
  stdout : ByteArray := ByteArray.empty
  stderr : ByteArray := ByteArray.empty
  files : Files
  /-- The signals that arrive while the command runs, first one first. -/
  signals : List Signal := []

/-- What a download leaves behind, which may be a part of the file if it fails. -/
structure Fetching where
  result : Except Failure Unit
  files : Files
  /-- The signals that arrive in the meantime, first one first. -/
  signals : List Signal := []

/-! ## Machines -/

structure Machine where
  /-- A program of this name can be found. -/
  finds : String → Bool
  /-- What a command does may depend on the commands before, first one first, and on the files. -/
  execute : List Command → Command → Files → Completion
  /-- Fetches a URL into a file of this path. -/
  download : String → Path → Files → Fetching

namespace Machine

/-- Why a command cannot be started, if it cannot. -/
def refusal? (machine : Machine) (command : Command) : Option String :=
  if !command.isPlain then some "nul byte found in provided data"
  else if !machine.finds command.program then some "No such file or directory (os error 2)"
  else none

/-- Starts a command and waits for its end. `what` names it if it cannot be started. -/
def start (machine : Machine) (what : String) (earlier : List Command) (command : Command)
    (files : Files) : Except Failure Completion :=
  match machine.refusal? command with
  | some reason =>
    .error ⟨s!"Failed to spawn {what}: {command.shownProgram}", [reason]⟩
  | none => .ok (machine.execute earlier command files)

end Machine

end Provision
