import Provision.Arguments.Command
import Provision.Text.Piece

/-!
# Reading command lines

A command line has two levels: the program with its options, then a command with its own. Some
options may stand on both levels, and then the command's one counts. A value that has been read is
settled only when the next option or file comes, or at the end of its level, so a fault further on
can come first.
-/

namespace Provision.Arguments

open Text

/-! ## Options -/

inductive Opt where
  | help
  | version
  | verbose
  | dryRun
  | config
  | forceAll
  | skip
  | skipFlags
  | only
  | onlyFlags
  | hostname
  | sourcesDir
  | stopOnError
  | markerRoot
  | json
deriving DecidableEq

namespace Opt

def name : Opt → String
  | help => "help"
  | version => "version"
  | verbose => "verbose"
  | dryRun => "dry-run"
  | config => "config"
  | forceAll => "force-all"
  | skip => "skip"
  | skipFlags => "skip-flags"
  | only => "only"
  | onlyFlags => "only-flags"
  | hostname => "hostname"
  | sourcesDir => "sources-dir"
  | stopOnError => "stop-on-error"
  | markerRoot => "semaphore-dir"
  | json => "json"

/-- Options that take a value have no letter. -/
def letter? : Opt → Option Char
  | help => some 'h'
  | version => some 'V'
  | verbose => some 'v'
  | _ => none

def takesValue (opt : Opt) : Bool :=
  opt ∈ [config, skip, skipFlags, only, onlyFlags, hostname, sourcesDir, markerRoot]

/-- The options that may stand on both levels. -/
def shared : List Opt := [help, verbose, dryRun, config]

def select : List Opt := [forceAll, skip, skipFlags, only, onlyFlags, hostname, sourcesDir]

end Opt

inductive Verb where
  | install
  | validate
  | plan
deriving DecidableEq

namespace Verb

def all : List Verb := [install, validate, plan]

def label : Verb → String
  | install => "install"
  | validate => "validate"
  | plan => "plan"

def ofLabel? (label : String) : Option Verb := all.find? fun verb => verb.label = label

def options : Verb → List Opt
  | install => Opt.shared ++ Opt.select ++ [.stopOnError, .markerRoot]
  | validate => Opt.shared
  | plan => Opt.shared ++ Opt.select ++ [.json]

end Verb

/-! ## What is given -/

/-- What the options of one level have said so far. -/
structure Given where
  dryRun : Bool := false
  config? : Option Path := none
  verbosity : Nat := 0
  select : SelectOptions := {}
  stopOnError : Bool := false
  markerRoot? : Option Path := none
  json : Bool := false
  file? : Option Path := none
deriving DecidableEq

namespace Given

def verbosityLimit : Nat := 255

/-- Something that may be said only once. -/
private def once (said : Bool) (next : Given) : Except UsageError Given :=
  if said then .error .repeated else .ok next

private def path (text : String) : Except UsageError Path :=
  if text.isEmpty then .error .missingValue else .ok ⟨text⟩

/-- The items of a list between its commas. -/
def items (text : String) : List String := (pieces ',' text.toList).map String.ofList

theorem items_ne_nil (text : String) : items text ≠ [] := by
  simpa [items] using pieces_ne_nil ',' text.toList

def flags (text : String) : Except UsageError (List Flag) :=
  (items text).mapM fun token =>
    match Flag.ofToken? token.toList with
    | some flag => .ok flag
    | none => .error (.unknownFlag token)

/-- Takes an option that has no value. -/
def switch (given : Given) : Opt → Except UsageError Given
  | .help => .error .help
  | .version => .error .version
  | .verbose => .ok { given with verbosity := min verbosityLimit (given.verbosity + 1) }
  | .dryRun => once given.dryRun { given with dryRun := true }
  | .forceAll =>
    once given.select.forceAll { given with select := { given.select with forceAll := true } }
  | .stopOnError => once given.stopOnError { given with stopOnError := true }
  | .json => once given.json { given with json := true }
  | _ => .error .missingValue

/-- Takes an option with its value. Lists grow; everything else may be given once. -/
def take (given : Given) (opt : Opt) (text : String) : Except UsageError Given := do
  let select := given.select
  match opt with
  | .config =>
    let given ← once given.config?.isSome given
    return { given with config? := some (← path text) }
  | .markerRoot =>
    let given ← once given.markerRoot?.isSome given
    return { given with markerRoot? := some (← path text) }
  | .sourcesDir =>
    let given ← once select.sourcesDir?.isSome given
    return { given with select := { select with sourcesDir? := some (← path text) } }
  | .hostname =>
    once select.hostname?.isSome { given with select := { select with hostname? := text } }
  | .skip => return { given with select := { select with skip := select.skip ++ items text } }
  | .only => return { given with select := { select with only := select.only ++ items text } }
  | .skipFlags =>
    return { given with select := { select with skipFlags := select.skipFlags ++ (← flags text) } }
  | .onlyFlags =>
    return { given with select := { select with onlyFlags := select.onlyFlags ++ (← flags text) } }
  | _ => throw .unneededValue

end Given

/-! ## Levels -/

/-- What has been read but not settled. -/
inductive Pending where
  | option (opt : Opt) (value? : Option String)
  | file (text : String)
deriving DecidableEq

/-- The state of reading one level: the program's, or that of a command. -/
structure Level where
  verb? : Option Verb := none
  given : Given := {}
  pending? : Option Pending := none
  fileRead : Bool := false
  /-- A `--` has been read, and what follows is no option. -/
  literal : Bool := false

namespace Level

def options (level : Level) : List Opt :=
  match level.verb? with
  | some verb => verb.options
  | none => .version :: Opt.shared

/-- The last option still waits for its value. -/
def awaits (level : Level) : Bool :=
  !level.literal && level.pending? matches some (.option _ none)

def settle (level : Level) : Except UsageError Level := do
  match level.pending? with
  | none => return level
  | some (.option _ none) => throw .missingValue
  | some (.option opt (some text)) =>
    return { level with given := ← level.given.take opt text, pending? := none }
  | some (.file text) =>
    if text.isEmpty then throw .missingValue
    return { level with given := { level.given with file? := some ⟨text⟩ }, pending? := none }

def readSwitch (level : Level) (opt : Opt) : Except UsageError Level := do
  let level ← level.settle
  return { level with given := ← level.given.switch opt }

/-- Reads an option by its name, with the value that an equals sign may attach to it. -/
def readName (level : Level) (name : String) (value? : Option String) :
    Except UsageError Level := do
  match level.options.find? fun opt => opt.name = name with
  | none => throw .unknownArgument
  | some opt =>
    if opt.takesValue then
      let level ← level.settle
      match value? with
      | some text => return { level with given := ← level.given.take opt text }
      | none => return { level with pending? := some (.option opt none) }
    else if value?.isSome then throw .unneededValue
    else level.readSwitch opt

def readLetter (level : Level) (letter : Char) : Except UsageError Level :=
  match level.options.find? fun opt => opt.letter? = some letter with
  | none => .error .unknownArgument
  | some opt => level.readSwitch opt

/-- A word that has no place on the level. -/
def surplus (level : Level) (word : String) : UsageError :=
  if level.verb?.isSome then .unknownArgument
  else if level.literal && (word = "help" || (Verb.ofLabel? word).isSome) then .unknownArgument
  else .unknownCommand

/-- Reads a word that is no option: a value, or the file of a command. -/
def readWord (level : Level) (word : String) : Except UsageError Level := do
  match level.awaits, level.pending? with
  | true, some (.option opt _) => return { level with pending? := some (.option opt (some word)) }
  | _, _ =>
    if level.verb?.isSome && !level.fileRead then
      let level ← level.settle
      return { level with pending? := some (.file word), fileRead := true }
    else throw (level.surplus word)

/-- Reads one argument. -/
def read (level : Level) (argument : String) : Except UsageError Level :=
  if level.literal then level.readWord argument
  else match argument.toList with
    | ['-', '-'] => .ok { level with literal := true }
    | '-' :: '-' :: body =>
      match cut? (· = '=') body with
      | some (name, value) => level.readName (String.ofList name) (some (String.ofList value))
      | none => level.readName (String.ofList body) none
    | '-' :: letter :: letters => (letter :: letters).foldlM readLetter level
    | _ => level.readWord argument

end Level

/-! ## Whole command lines -/

def Verb.job (verb : Verb) (given : Given) : Except UsageError Job :=
  match given.file? with
  | none => .error .missingFile
  | some file =>
    match verb with
    | .install => .ok (.install file given.select given.stopOnError given.markerRoot?)
    | .validate => .ok (.validate file)
    | .plan => .ok (.plan file given.select given.json)

/-- The answer to `help`: there is help for every command. -/
def helpFor (topics : List String) : UsageError :=
  match topics with
  | [] => .help
  | [topic] => if topic = "help" || (Verb.ofLabel? topic).isSome then .help else .unknownCommand
  | _ => .unknownCommand

def readVerb (outer : Level) (verb : Verb) (arguments : List String) :
    Except UsageError Arguments := do
  let inner ← (← arguments.foldlM Level.read { verb? := some verb }).settle
  let job ← verb.job inner.given
  let outer ← outer.settle
  let inner := inner.given
  let outer := outer.given
  return {
    dryRun := inner.dryRun || outer.dryRun
    config? := inner.config? <|> outer.config?
    verbosity := if inner.verbosity = 0 then outer.verbosity else inner.verbosity
    job }

/-- Reads the arguments up to the command, then those of the command. -/
def readFrom (level : Level) : List String → Except UsageError Arguments
  | [] => do
    let level ← level.settle
    throw (if level.given = {} then .nothingGiven else .missingCommand)
  | argument :: rest => do
    if !level.literal && !level.awaits then
      if argument = "help" then throw (helpFor rest)
      if let some verb := Verb.ofLabel? argument then return ← readVerb level verb rest
    readFrom (← level.read argument) rest

def parse (arguments : List String) : Except UsageError Arguments := readFrom {} arguments

end Provision.Arguments
