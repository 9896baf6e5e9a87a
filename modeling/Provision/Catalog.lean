import Provision.Document.Diagnostic
import Provision.Installable

/-!
# The catalog

The units of a document in their order, each under a name of its own. Three views select the units
of a bucket; one after the other they give the order in which the units run.
-/

namespace Provision

open Document (Diagnostic)

/-- A unit and the line that declares it. -/
structure Entry where
  line : Nat
  unit : Installable
deriving DecidableEq

structure Catalog where
  entries : List Entry := []
deriving DecidableEq

namespace Catalog

def entry? (catalog : Catalog) (name : String) : Option Entry :=
  catalog.entries.find? fun entry => entry.unit.name = name

/-- Adds a unit at the end, unless its name is taken. -/
def append (catalog : Catalog) (line : Nat) (unit : Installable) : Except Diagnostic Catalog :=
  match catalog.entry? unit.name with
  | some first => .error ⟨line, .duplicateUnit unit.name first.line⟩
  | none => .ok ⟨catalog.entries ++ [⟨line, unit⟩]⟩

def size (catalog : Catalog) : Nat := catalog.entries.length

/-! ## Buckets -/

/-- A unit with both `lead` and `trail` is in both views; the reader of documents makes none. -/
def inBucket (unit : Installable) : Bucket → Bool
  | .lead => unit.has .lead
  | .trail => unit.has .trail
  | .main => !unit.has .lead && !unit.has .trail

def view (catalog : Catalog) (bucket : Bucket) : List Entry :=
  catalog.entries.filter fun entry => inBucket entry.unit bucket

def runOrder (catalog : Catalog) : List Entry := Bucket.all.flatMap catalog.view

/-- Changes every unit of a bucket in place. -/
def updateBucket (catalog : Catalog) (bucket : Bucket) (f : Installable → Installable) : Catalog :=
  ⟨catalog.entries.map fun entry =>
    if inBucket entry.unit bucket then { entry with unit := f entry.unit } else entry⟩

end Catalog

end Provision
