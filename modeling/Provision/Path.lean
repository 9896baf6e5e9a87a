import Provision.Text.Piece

/-!
# Paths

A path is kept as its text. `components` is what the text means: where it starts and the steps it
takes, without the empty and `.` steps that change nothing. `join`, `fileName?` and `parents` work
on the text and keep its spelling, because paths are printed as they were written.
-/

namespace Provision

structure Path where
  text : String
deriving DecidableEq, Inhabited

namespace Path

open Text

inductive Component where
  | root
  | here
  | up
  | name (name : String)
deriving DecidableEq

def isAbsolute (p : Path) : Bool := p.text.toList.head? = some '/'

/-- The text asks for a directory: it ends in a slash. -/
def asksDirectory (p : Path) : Bool := p.text.toList.getLast? = some '/'

/-- A part between slashes that takes no step. -/
def idle (part : List Char) : Bool := part.isEmpty || part = ['.']

def step (part : List Char) : Component :=
  if part = ['.'] then .here else if part = ['.', '.'] then .up else .name (String.ofList part)

/-- The start of the path, then its steps. Only a leading `.` is a step of its own. -/
def components (p : Path) : List Component :=
  match pieces '/' p.text.toList with
  | [] => []
  | first :: rest =>
    let start := if !first.isEmpty then [step first] else if rest.isEmpty then [] else [.root]
    start ++ (rest.filter (!idle ·)).map step

/-- The last step, if it is a name. -/
def fileName? (p : Path) : Option String :=
  match p.components.getLast? with
  | some (.name name) => some name
  | _ => none

/-- An absolute text replaces the path; any other follows it behind one slash. -/
def join (p : Path) (text : String) : Path :=
  if text.toList.head? = some '/' || p.text.isEmpty then ⟨text⟩
  else if p.asksDirectory then ⟨p.text ++ text⟩
  else ⟨p.text ++ "/" ++ text⟩

/-! ## Parents -/

/-- The text of a path given by its first part and its other parts, last one first. -/
def spell (first : List Char) (reversed : List (List Char)) : Path :=
  let kept := (reversed.dropWhile idle).reverse
  if first.isEmpty && kept.isEmpty then ⟨"/"⟩
  else ⟨String.ofList (['/'].intercalate (first :: kept))⟩

def parentsOf (first : List Char) : List (List Char) → List Path
  | [] => if first.isEmpty then [] else [⟨""⟩]
  | part :: before =>
    if idle part then parentsOf first before else spell first before :: parentsOf first before

/-- The directories that hold the path, nearest first. A relative path ends in the empty one. -/
def parents (p : Path) : List Path :=
  match pieces '/' p.text.toList with
  | [] => []
  | first :: rest => parentsOf first rest.reverse

def parent? (p : Path) : Option Path := p.parents.head?

/-- The parts that a look-up walks through, `.` and `..` included. -/
def names (p : Path) : List String :=
  ((pieces '/' p.text.toList).filter (!·.isEmpty)).map String.ofList

end Path

end Provision
