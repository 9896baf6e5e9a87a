import Provision.Path
import Provision.Sorted

/-!
# A file system

Files and directories under one root, looked up step by step as an operating system does: every
directory on the way must exist, `..` leads out of it, and a name has at most 255 bytes. An
operation that is refused says why; `makeDirectories` may have made some of the directories before
it fails.

There are no symbolic links and no permissions. A write is refused for its path or writes all: the
faults of a device, which leave a file without its content, are left out.
-/

namespace Provision

inductive Node where
  | directory
  | file (content : ByteArray)

instance : DecidableEq Node
  | .directory, .directory => isTrue rfl
  | .directory, .file _ | .file _, .directory => isFalse nofun
  | .file a, .file b =>
    match ByteArray.instDecidableEq a b with
    | isTrue h => isTrue (congrArg Node.file h)
    | isFalse h => isFalse fun same => h (Node.file.inj same)

/-- The names from the root down. -/
abbrev Location := List String

/-- The working directory, which always exists, and what has been put into the file system. -/
structure Files where
  cwd : Location := ["home"]
  nodes : List (Location × Node) := []

namespace Files

/-! ## Refusals -/

inductive Fault where
  | notFound
  | alreadyExists
  | notDirectory
  | isDirectory
  | nameTooLong
  | nulInPath
  | notText
deriving DecidableEq

def Fault.reason : Fault → String
  | notFound => "No such file or directory"
  | alreadyExists => "File exists"
  | notDirectory => "Not a directory"
  | isDirectory => "Is a directory"
  | nameTooLong => "File name too long"
  | nulInPath => "file name contained an unexpected NUL byte"
  | notText => "stream did not contain valid UTF-8"

/-- The number under which an operating system knows a fault, if it knows it. -/
def Fault.number? : Fault → Option Nat
  | notFound => some 2
  | alreadyExists => some 17
  | notDirectory => some 20
  | isDirectory => some 21
  | nameTooLong => some 36
  | nulInPath | notText => none

def Fault.message (fault : Fault) : String :=
  match fault.number? with
  | some number => s!"{fault.reason} (os error {number})"
  | none => fault.reason

/-- The longest name, in bytes. -/
def nameLimit : Nat := 255

/-- The longest path text, in bytes. -/
def pathLimit : Nat := 4095

/-! ## Contents -/

/-- What is at a location. The working directory and those that hold it are always there. -/
def at? (fs : Files) (l : Location) : Option Node :=
  if l.isPrefixOf fs.cwd then some .directory else fs.nodes.lookup l

def put (fs : Files) (l : Location) (node : Node) : Files :=
  { fs with nodes := (l, node) :: fs.nodes.filter fun entry => entry.1 != l }

@[simp] theorem cwd_put (fs : Files) (l : Location) (node : Node) : (fs.put l node).cwd = fs.cwd :=
  rfl

theorem at?_put (fs : Files) (l m : Location) (node : Node) (h : l.isPrefixOf fs.cwd = false) :
    (fs.put l node).at? m = if m = l then some node else fs.at? m := by
  by_cases hm : m = l
  · subst hm
    simp [at?, put, h]
  · have hml : (m == l) = false := by simp [hm]
    have lookup_filter : ∀ entries : List (Location × Node),
        (entries.filter fun entry => entry.1 != l).lookup m = entries.lookup m := by
      intro entries
      induction entries with
      | nil => rfl
      | cons entry rest ih =>
        obtain ⟨k, v⟩ := entry
        by_cases hk : k = l
        · simp [hk, hml, ih, List.lookup_cons]
        · simp [hk, ih, List.lookup_cons]
    simp [at?, put, hm, List.lookup_cons, lookup_filter, hml]

/-! ## Look-up -/

/-- One step of a look-up, from a directory into a directory. -/
def enter (fs : Files) (here : Location) (name : String) : Except Fault Location :=
  if name = "." then .ok here
  else if name = ".." then .ok here.dropLast
  else if nameLimit < name.utf8ByteSize then .error .nameTooLong
  else match fs.at? (here ++ [name]) with
    | none => .error .notFound
    | some (.file _) => .error .notDirectory
    | some .directory => .ok (here ++ [name])

/-- Where a path leads: to a directory by its dots or slashes, or to a name in a directory. -/
inductive Target where
  | directory (l : Location)
  | entry (l : Location)

def locate (fs : Files) (p : Path) : Except Fault Target :=
  if p.text.toList.contains (Char.ofNat 0) then .error .nulInPath
  else if pathLimit < p.text.utf8ByteSize then .error .nameTooLong
  else if p.text.isEmpty then .error .notFound
  else
    let start := if p.isAbsolute then [] else fs.cwd
    match p.names.getLast? with
    | none => .ok (.directory start)
    | some last =>
      if last = "." || last = ".." then (p.names.foldlM fs.enter start).map .directory
      else
        match p.names.dropLast.foldlM fs.enter start with
        | .error fault => .error fault
        | .ok parent =>
          if nameLimit < last.utf8ByteSize then .error .nameTooLong
          else .ok (.entry (parent ++ [last]))

def stat (fs : Files) (p : Path) : Except Fault Node :=
  match fs.locate p with
  | .error fault => .error fault
  | .ok (.directory _) => .ok .directory
  | .ok (.entry l) =>
    match fs.at? l with
    | none => .error .notFound
    | some .directory => .ok .directory
    | some (.file content) => if p.asksDirectory then .error .notDirectory else .ok (.file content)

def exists? (fs : Files) (p : Path) : Bool := (fs.stat p).isOk

def isDirectory (fs : Files) (p : Path) : Bool := fs.stat p matches .ok .directory

/-! ## Reading and writing -/

def read (fs : Files) (p : Path) : Except Fault ByteArray := do
  match ← fs.stat p with
  | .directory => throw .isDirectory
  | .file content => return content

/-- The content of a file as text, which must be valid UTF-8. -/
def readText (fs : Files) (p : Path) : Except Fault String := do
  match String.fromUTF8? (← fs.read p) with
  | some text => return text
  | none => throw .notText

/-- Where a file may be written: the directory that is to hold it must exist. -/
def writable (fs : Files) (p : Path) : Except Fault Location :=
  match fs.locate p with
  | .error fault => .error fault
  | .ok (.directory _) => .error .isDirectory
  | .ok (.entry l) =>
    if p.asksDirectory || fs.at? l = some .directory then .error .isDirectory else .ok l

/-- Writes a file anew; what it held before is gone. -/
def write (fs : Files) (p : Path) (content : ByteArray) : Except Fault Files :=
  (fs.writable p).map fun l => fs.put l (.file content)

/-- Writes behind what the file holds, if there is one. -/
def append (fs : Files) (p : Path) (content : ByteArray) : Except Fault Files := do
  let l ← fs.writable p
  match fs.at? l with
  | some (.file before) => return fs.put l (.file (before ++ content))
  | _ => return fs.put l (.file content)

/-- Takes a file away. -/
def remove (fs : Files) (p : Path) : Except Fault Files :=
  match fs.locate p with
  | .error fault => .error fault
  | .ok (.directory _) => .error .isDirectory
  | .ok (.entry l) =>
    match fs.at? l with
    | none => .error .notFound
    | some .directory => .error .isDirectory
    | some (.file _) =>
      if p.asksDirectory then .error .notDirectory
      else .ok { fs with nodes := fs.nodes.filter fun entry => entry.1 != l }

/-! ## Directories -/

def makeDirectory (fs : Files) (p : Path) : Except Fault Files :=
  match fs.locate p with
  | .error fault => .error fault
  | .ok (.directory _) => .error .alreadyExists
  | .ok (.entry l) =>
    if (fs.at? l).isSome then .error .alreadyExists else .ok (fs.put l .directory)

/-- Makes the first of the paths, each of which is the parent of the one before it. -/
def makeWithParents (fs : Files) : List Path → Files × Option Fault
  | [] => (fs, none)
  | p :: above =>
    if p.text.isEmpty then (fs, none)
    else match fs.makeDirectory p with
      | .ok made => (made, none)
      | .error .notFound =>
        match makeWithParents fs above with
        | (held, some fault) => (held, some fault)
        | (held, none) =>
          match held.makeDirectory p with
          | .ok made => (made, none)
          | .error fault =>
            if fault = .alreadyExists && held.isDirectory p then (held, none)
            else (held, some fault)
      | .error fault =>
        if fault = .alreadyExists && fs.isDirectory p then (fs, none) else (fs, some fault)

/-- Makes a directory and all that are missing above it. One that is there already is no fault. -/
def makeDirectories (fs : Files) (p : Path) : Files × Option Fault :=
  fs.makeWithParents (p :: p.parents)

/-- Makes the directory that is to hold a file. -/
def makeParent (fs : Files) (p : Path) : Files × Option Fault :=
  match p.parent? with
  | some parent => fs.makeDirectories parent
  | none => (fs, none)

/-! ## Listing -/

/-- The entries below the working directory, by their names from there. -/
def entries (fs : Files) : List (List String × Node) :=
  fs.nodes.filterMap fun (l, node) =>
    if fs.cwd.isPrefixOf l && l != fs.cwd then some (l.drop fs.cwd.length, node) else none

/-- The names of what a directory holds, in the order of their bytes. -/
def namesIn (fs : Files) (directory : Location) : List String :=
  let names := fs.nodes.filterMap fun (l, _) =>
    if l.length = directory.length + 1 && directory.isPrefixOf l then l.getLast? else none
  Sorted.ofList names

end Files

end Provision
