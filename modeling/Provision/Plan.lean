import Provision.Catalog
import Provision.Decision
import Provision.Json.Value

/-!
# Plans

A plan lists the units in the order in which they would run, each with the decision about it,
and runs nothing.
-/

namespace Provision

/-- The cause of a skip, and the package or flag that it names. -/
def SkipCause.fields (cause : SkipCause) : List (String × Json) :=
  ("reason", .string cause.label) :: match cause with
    | .archiveInstalled package => [("package", .string package)]
    | .skippedByFlag flag => [("flag", .string flag.label)]
    | _ => []

def Decision.json : Decision → Json
  | .install forced => .object [("decision", .string "install"), ("forced", .boolean forced)]
  | .skip cause => .object (("decision", .string "skip") :: cause.fields)

structure PlanRow where
  line : Nat
  name : String
  bucket : Bucket
  decision : Decision
deriving DecidableEq

namespace PlanRow

private def padStart (width : Nat) (s : String) : String :=
  String.ofList (s.toList.leftpad width ' ')

private def padEnd (width : Nat) (s : String) : String :=
  String.ofList (s.toList.rightpad width ' ')

/-- The row in a table: line, bucket, name and decision. -/
def text (row : PlanRow) : String :=
  "  ".intercalate [padStart 5 (toString row.line), padEnd 5 row.bucket.label,
    padEnd 30 row.name, row.decision.message]

/-- The row as an object. -/
def json (row : PlanRow) : Json :=
  .object [("line", .integer row.line), ("name", .string row.name),
    ("bucket", .string row.bucket.label), ("decision", row.decision.json)]

end PlanRow

def plan (catalog : Catalog) (criteria : Criteria) (snapshot : Snapshot) (hostname : String) :
    List PlanRow :=
  catalog.runOrder.map fun entry =>
    { line := entry.line
      name := entry.unit.name
      bucket := entry.unit.bucket
      decision := criteria.judge entry.unit snapshot hostname }

end Provision
