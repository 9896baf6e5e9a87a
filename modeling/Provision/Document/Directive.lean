import Provision.Document.Diagnostic
import Provision.Installable
import Provision.Sorted
import Provision.Text.Case

/-!
# Directives

What the eight directives of a unit mean. Reading one either changes the unit or gives the cause
why it cannot.
-/

namespace Provision.Document

open Text

inductive Key where
  | hosts
  | flags
  | deb
  | repo
  | source
  | pre
  | post
  | package
deriving DecidableEq, Repr

namespace Key

def all : List Key := [hosts, flags, deb, repo, source, pre, post, package]

def token : Key → String
  | hosts => "hosts"
  | flags => "flags"
  | deb => "deb"
  | repo => "repo"
  | source => "source"
  | pre => "pre"
  | post => "post"
  | package => "package"

/-- The key of a text, without regard to the case of its ASCII letters. -/
def ofText? (text : List Char) : Option Key :=
  let plain := text.map Char.toLower
  all.find? fun key => key.token.toList = plain

theorem ofText?_token (key : Key) : ofText? key.token.toList = some key := by
  cases key <;> decide +kernel

end Key

/-! ## Values -/

/-- The items of a list, without the blanks around them; empty items do not count. -/
def items (value : List Char) : List (List Char) :=
  ((pieces ',' value).map trim).filter (!·.isEmpty)

def addHost (unit : Installable) (item : List Char) : Except Cause Installable :=
  let pattern := String.ofList (lower item)
  if unit.hosts.contains pattern then .error (.duplicateHost unit.name pattern)
  else .ok { unit with hosts := Sorted.insert pattern unit.hosts }

def addFlag (unit : Installable) (item : List Char) : Except Cause Installable :=
  match Flag.ofToken? item with
  | none => .error (.unknownFlag unit.name (String.ofList item))
  | some flag =>
    if unit.has flag then .error (.duplicateFlag unit.name flag)
    else .ok { unit with flags := Sorted.insert flag unit.flags }

/-- The pairs of flags that one unit may not have. -/
def exclusiveFlags : List (Flag × Flag) := [(.force, .skip), (.lead, .trail)]

def checkExclusive (unit : Installable) : Except Cause Installable :=
  match exclusiveFlags.find? fun (first, second) => unit.has first && unit.has second with
  | some (first, second) => .error (.conflictingFlags unit.name first second)
  | none => .ok unit

/--
The value of `source` is a file and the text to write. Whatever directories the first word names,
the file stands directly in the sources directory.
-/
def sourceEntry? (sourcesDir : Path) (value : List Char) : Option SourceFile := do
  let (word, after) ← cut? isBlank value
  let content := trimStart after
  let file ← (Path.mk (String.ofList word)).fileName?
  if content.isEmpty then none else some ⟨sourcesDir.join file, String.ofList content⟩

/-- Sets a field that one directive alone may set. -/
def setOnce (unit : Installable) (key : Key) (field : Option String)
    (set : Installable) : Except Cause Installable :=
  if field.isSome then .error (.duplicateDirective unit.name key.token) else .ok set

/-- The unit after a directive. The value is trimmed and not empty. -/
def applyDirective (sourcesDir : Path) (unit : Installable) (key : Key) (value : List Char) :
    Except Cause Installable :=
  let text := String.ofList value
  match key with
  | .hosts => (items value).foldlM addHost unit
  | .flags => (items value).foldlM addFlag unit >>= checkExclusive
  | .deb =>
    setOnce unit key unit.url? { unit with delivery := .downloadedArchive, url? := some text }
  | .repo =>
    if !unit.sources.isEmpty then .error (.repoSourceConflict unit.name)
    else if unit.repositories.contains text then .ok unit
    else .ok { unit with repositories := unit.repositories ++ [text] }
  | .source =>
    if !unit.repositories.isEmpty then .error (.repoSourceConflict unit.name)
    else match sourceEntry? sourcesDir value with
      | none => .error (.malformedSource unit.name)
      | some entry => .ok { unit with sources := unit.sources ++ [entry] }
  | .pre => setOnce unit key unit.preScript? { unit with preScript? := some text }
  | .post => setOnce unit key unit.postScript? { unit with postScript? := some text }
  | .package => setOnce unit key unit.package? { unit with package? := some text }

end Provision.Document
