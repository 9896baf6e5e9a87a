import Provision.Decision
import Provision.Sorted
import Provision.Text.Blank

/-!
# Command lines

What a command line asks for once it has been read, and why one is refused.
-/

namespace Provision

/-- The options that `plan` and `install` share. The lists are kept as they were written. -/
structure SelectOptions where
  forceAll : Bool := false
  skip : List String := []
  skipFlags : List Flag := []
  only : List String := []
  onlyFlags : List Flag := []
  hostname? : Option String := none
  sourcesDir? : Option Path := none
deriving DecidableEq

namespace SelectOptions

/-- The names of a list; blanks around a name do not count and an empty name is none. -/
def names (items : List String) : List String :=
  Sorted.ofList
    ((items.map fun item => String.ofList (Text.trim item.toList)).filter (!·.isEmpty))

def criteria (options : SelectOptions) : Criteria where
  forceAll := options.forceAll
  skipNames := names options.skip
  skipFlags := Sorted.ofList options.skipFlags
  onlyNames := names options.only
  onlyFlags := Sorted.ofList options.onlyFlags

end SelectOptions

inductive Job where
  | validate (file : Path)
  | plan (file : Path) (select : SelectOptions) (json : Bool)
  | install (file : Path) (select : SelectOptions) (stopOnError : Bool) (markerRoot? : Option Path)
deriving DecidableEq

structure Arguments where
  dryRun : Bool := false
  config? : Option Path := none
  /-- How much is logged. -/
  verbosity : Nat := 0
  job : Job
deriving DecidableEq

/-- Why no job follows from a command line. -/
inductive UsageError where
  | help
  | version
  | nothingGiven
  | missingCommand
  | unknownCommand
  | unknownArgument
  | missingFile
  /-- An option that may stand once stands twice. -/
  | repeated
  /-- An option without its value, or a path that is empty. -/
  | missingValue
  | unknownFlag (token : String)
  /-- A value for an option that takes none. -/
  | unneededValue
deriving DecidableEq

namespace UsageError

def message : UsageError → String
  | help => "usage: [OPTIONS] <install|validate|plan> FILE"
  | version => "version"
  | nothingGiven => "no arguments are given"
  | missingCommand => "no command is given"
  | unknownCommand => "unknown command"
  | unknownArgument => "unknown argument"
  | missingFile => "no file is given"
  | repeated => "an option is given twice"
  | missingValue => "a value is missing"
  | unknownFlag token => s!"unknown flag `{token}` (valid: {Flag.validTokens})"
  | unneededValue => "an option takes no value"

/-- Being asked for help or for the version is no mistake. -/
def exitCode : UsageError → Nat
  | help => 0
  | version => 0
  | _ => 2

end UsageError

end Provision
