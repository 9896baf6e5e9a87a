import Provision.Document.Reading
import Provision.Json.Scan
import Provision.Run.Marker

/-!
# Configuration

The defaults of a site, kept as a JSON file. Every key may be missing and none may stand twice; an
array gives the values in the order of the keys. The two directories must be absolute paths.
-/

namespace Provision

structure Configuration where
  markerRoot : Path := ({} : MarkerStore).root
  sourcesDir : Path := Document.defaultSourcesDir
  stopOnError : Bool := false
  skipRootCheck : Bool := false
deriving DecidableEq

namespace Configuration

/-- Read when no other file is named. That it is missing is no error. -/
def defaultPath : Path := ⟨"/etc/packlist/config.json"⟩

/-! ## Keys -/

inductive Key where
  | markerRoot
  | sourcesDir
  | stopOnError
  | skipRootCheck
deriving DecidableEq

namespace Key

/-- The keys in their order. -/
def all : List Key := [markerRoot, sourcesDir, stopOnError, skipRootCheck]

def label : Key → String
  | markerRoot => "semaphore_dir"
  | sourcesDir => "sources_dir"
  | stopOnError => "stop_on_error"
  | skipRootCheck => "skip_root_check"

def ofLabel? (label : String) : Option Key := all.find? fun key => key.label = label

def duplicate (key : Key) : String := s!"duplicate field `{key.label}`"

def unknown (label : String) : String :=
  s!"unknown field `{label}`, expected one of " ++
    ", ".intercalate (all.map fun key => s!"`{key.label}`")

end Key

/-! ## Reading -/

open Json

/-- Reads the value of a key. -/
def readValue (key : Key) (config : Configuration) (s : List Char) :
    Except Fault (Configuration × List Char) := do
  match key with
  | .markerRoot =>
    let (text, rest) ← readText "path string" s
    return ({ config with markerRoot := ⟨text⟩ }, rest)
  | .sourcesDir =>
    let (text, rest) ← readText "path string" s
    return ({ config with sourcesDir := ⟨text⟩ }, rest)
  | .stopOnError =>
    let (value, rest) ← readBoolean s
    return ({ config with stopOnError := value }, rest)
  | .skipRootCheck =>
    let (value, rest) ← readBoolean s
    return ({ config with skipRootCheck := value }, rest)

/-- Steps over the colon between a key and its value. -/
def colon (s : List Char) : Except Fault (List Char) :=
  match skipSpace s with
  | ':' :: rest => .ok rest
  | left => if left.isEmpty then badNext .endInObject left else badNext .expectedColon left

/-- A key that cannot stand here. It is placed behind the object if that ends at once. -/
def misplaced {α : Type} (detail : String) (s : List Char) : Except Fault α :=
  match skipSpace s with
  | '\x7d' :: rest => .error ⟨.mismatch detail, rest, false⟩
  | left => .error ⟨.mismatch detail, left, false⟩

/-- The start of the next key behind its quote, or the end of the object behind its brace. -/
def nextKey (first : Bool) (s : List Char) : Except Fault (Option (List Char) × List Char) :=
  match skipSpace s with
  | [] => badNext .endInObject []
  | '\x7d' :: rest => .ok (none, rest)
  | '"' :: rest => if first then .ok (some rest, []) else badNext .expectedObjectEnd ('"' :: rest)
  | ',' :: rest =>
    if first then badNext .keyNotString (',' :: rest)
    else match skipSpace rest with
      | [] => badNext .endInValue []
      | '"' :: key => .ok (some key, [])
      | '\x7d' :: more => badNext .trailingComma ('\x7d' :: more)
      | other => badNext .keyNotString other
  | other => badNext (if first then .keyNotString else .expectedObjectEnd) other

/-- The keys and values of an object whose opening brace has been read; `unread` may still come. -/
def readFields (unread : List Key) (config : Configuration) (s : List Char) :
    Except Fault (Configuration × List Char) := do
  match ← nextKey (unread.length = Key.all.length) s with
  | (none, rest) => return (config, rest)
  | (some start, _) =>
    let (label, rest) ← stringRest start
    match Key.ofLabel? (String.ofList label) with
    | none => misplaced (Key.unknown (String.ofList label)) rest
    | some key =>
      if h : key ∈ unread then
        let (config, rest) ← readValue key config (← colon rest)
        have : (unread.erase key).length < unread.length := by
          rw [List.length_erase_of_mem h]
          have := List.length_pos_of_mem h
          omega
        readFields (unread.erase key) config rest
      else misplaced key.duplicate rest
termination_by unread.length

/-- The end of an array that has a value for every key. -/
def endItems (s : List Char) : Except Fault (List Char) :=
  match skipSpace s with
  | ']' :: rest => .ok rest
  | ',' :: rest =>
    match skipSpace rest with
    | ']' :: more => badNext .trailingComma (']' :: more)
    | other => badNext .trailingCharacters other
  | left => if left.isEmpty then badNext .endInList left else badNext .trailingCharacters left

/-- The values of an array whose opening bracket has been read, one for each key until it ends. -/
def readItems (first : Bool) (config : Configuration) :
    List Key → List Char → Except Fault (Configuration × List Char)
  | [], s => do return (config, ← endItems s)
  | key :: later, s => do
    match skipSpace s with
    | [] => badNext .endInList []
    | ']' :: rest => return (config, rest)
    | other =>
      if first then
        let (config, rest) ← readValue key config other
        readItems false config later rest
      else match other with
        | ',' :: rest =>
          match skipSpace rest with
          | [] => badNext .endInValue []
          | ']' :: more => badNext .trailingComma (']' :: more)
          | value =>
            let (config, rest) ← readValue key config value
            readItems false config later rest
        | _ => badNext .expectedListEnd other

def readValues (s : List Char) : Except Fault (Configuration × List Char) :=
  match skipSpace s with
  | [] => badNext .endInValue []
  | '[' :: rest => readItems true {} Key.all rest
  | '\x7b' :: rest => readFields Key.all {} rest
  | other => refuse "struct Config" other

/-- Reads a whole text, which may have blanks around the one value that it holds. -/
def parse (s : List Char) : Except Fault Configuration := do
  let (config, rest) ← readValues s
  match skipSpace rest with
  | [] => return config
  | left => badNext .trailingCharacters left

/-! ## Loading -/

/-- The directory of the configuration that is not an absolute path, if there is one. -/
def relative? (config : Configuration) : Option (Key × Path) :=
  [(Key.markerRoot, config.markerRoot), (Key.sourcesDir, config.sourcesDir)].find?
    fun (_, path) => !path.isAbsolute

inductive LoadError where
  | unreadable (path : Path) (fault : Files.Fault)
  /-- The text of the file is not a configuration. -/
  | unparsable (path : Path) (text : List Char) (fault : Fault)
  | relative (key : Key) (path : Path)

def LoadError.failure : LoadError → Failure
  | unreadable path fault => ⟨s!"Failed to read configuration from {path.text}", [fault.message]⟩
  | unparsable path text fault =>
    ⟨s!"Failed to parse configuration {path.text}", [fault.message text]⟩
  | relative key path => ⟨s!"{key.label} must be an absolute path: {path.text}", []⟩

def loadFile (files : Files) (path : Path) : Except LoadError Configuration := do
  let text ← (files.readText path).mapError (.unreadable path)
  let config ← (parse text.toList).mapError (.unparsable path text.toList)
  match config.relative? with
  | some (key, directory) => throw (.relative key directory)
  | none => return config

/-- Loads the named file, which must exist; without a name the default file, if there is one. -/
def load (files : Files) (path? : Option Path) : Except LoadError Configuration :=
  match path? with
  | some path => loadFile files path
  | none => if files.exists? defaultPath then loadFile files defaultPath else .ok {}

end Configuration

end Provision
