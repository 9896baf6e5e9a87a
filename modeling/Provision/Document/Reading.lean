import Provision.Catalog
import Provision.Document.Directive
import Provision.Document.Line

/-!
# Reading a document

A line at the margin declares a unit; if it ends in a colon, the indented lines below it are the
unit's directives. `parse` reads the logical lines from the top and stops at the first fault.
-/

namespace Provision.Document

open Text

/-- The unit that the lines at hand belong to. -/
structure Draft where
  line : Nat
  unit : Installable
  /-- Its line ended in a colon, so directives must follow. -/
  block : Bool
  directives : Nat := 0

/-- How far a document has been read. -/
structure Reading where
  catalog : Catalog := {}
  draft? : Option Draft := none

namespace Reading

/-- Puts the open unit into the catalog. -/
def close (reading : Reading) : Except Diagnostic Reading :=
  match reading.draft? with
  | none => .ok reading
  | some draft =>
    if draft.block && draft.directives = 0 then
      .error ⟨draft.line, .missingBlock draft.unit.name⟩
    else (reading.catalog.append draft.line draft.unit).map fun catalog => ⟨catalog, none⟩

/-- The name of a unit line, and whether a colon at its end opens a block. -/
def declared (text : List Char) : List Char × Bool :=
  if text.getLast? = some ':' then (trim text.dropLast, true) else (trim text, false)

/-- What makes a name unfit: the first of three faults. A name becomes the name of a file. -/
def nameFault? (text name : List Char) : Option Cause :=
  if name.contains ':' then some (.colonInName (String.ofList text))
  else if name.isEmpty then some .emptyName
  else if name.contains '/' then some (.slashInName (String.ofList name))
  else none

def unitLine (reading : Reading) (line : Line) : Except Diagnostic Reading :=
  let (chars, block) := declared line.text
  match nameFault? line.text chars with
  | some cause => .error ⟨line.number, cause⟩
  | none =>
    match reading.close with
    | .error fault => .error fault
    | .ok closed =>
      let name := String.ofList chars
      match closed.catalog.entry? name with
      | some first => .error ⟨line.number, .duplicateUnit name first.line⟩
      | none => .ok { closed with draft? := some { line := line.number, unit := { name }, block } }

def directiveLine (sourcesDir : Path) (reading : Reading) (line : Line) :
    Except Diagnostic Reading :=
  match cut? (· = ':') (trimStart line.text) with
  | none => .error ⟨line.number, .missingColon⟩
  | some (before, after) =>
    let key := lower (trim before)
    let value := trim after
    if value.isEmpty then .error ⟨line.number, .emptyDirective (String.ofList key)⟩
    else match reading.draft? with
    | none => .error ⟨line.number, .outsideUnit⟩
    | some draft =>
      if !draft.block then .error ⟨line.number, .outsideUnit⟩
      else match Key.ofText? key with
      | none => .error ⟨line.number, .unknownDirective draft.unit.name (String.ofList key)⟩
      | some known =>
        match applyDirective sourcesDir draft.unit known value with
        | .error cause => .error ⟨line.number, cause⟩
        | .ok unit => .ok { reading with
            draft? := some { draft with unit, directives := draft.directives + 1 } }

def feed (sourcesDir : Path) (reading : Reading) (line : Line) : Except Diagnostic Reading :=
  if line.isBlank then .ok reading
  else if line.isIndented then reading.directiveLine sourcesDir line
  else reading.unitLine line

end Reading

/-- Where the files of `source` directives go if nothing else is said. -/
def defaultSourcesDir : Path := ⟨"/etc/apt/sources.list.d"⟩

/-- The catalog of a list of logical lines. -/
def ofLines (sourcesDir : Path) (lines : List Line) : Except Diagnostic Catalog := do
  let reading ← lines.foldlM (Reading.feed sourcesDir) {}
  return (← reading.close).catalog

def parse (sourcesDir : Path) (text : List Char) : Except Diagnostic Catalog :=
  ofLines sourcesDir (logicalLines text)

end Provision.Document
