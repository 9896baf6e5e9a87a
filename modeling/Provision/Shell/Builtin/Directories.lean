import Provision.Shell.Engine
import Provision.Shell.Options

/-!
# Builtins for directories

The working directory, and the stack of directories to which a script can go back.
-/

namespace Provision.Shell.Builtin

/-- Goes to a directory; the fault if that is not possible. -/
def goTo (path : Bytes) : Act (Except Files.Fault Unit) := do
  let state ← get
  match state.files.locate (pathOf path) with
  | .error fault => return .error fault
  | .ok target =>
    let location := match target with
      | .directory location | .entry location => location
    match state.files.at? location with
    | none => return .error .notFound
    | some (.file _) => return .error .notDirectory
    | some .directory =>
      let old := (state.textOf? "PWD").getD state.workingDirectory
      let moved := { state with files := { state.files with cwd := location } }
      set ((moved.setText "OLDPWD" old).setText "PWD" moved.workingDirectory)
      return .ok ()

/-- Goes to a directory; says so if that is not possible. -/
def change (builtin : String) (path : Bytes) : Act Bool := do
  match ← goTo path with
  | .ok _ => return true
  | .error fault =>
    Act.complainOf builtin s!"{shown path}: {fault.reason}"
    return false

def printDirectory : Act Unit := do
  discard (Act.write 1 ((← get).workingDirectory ++ ['\n']))

/-- The directory of a search path in which a relative path is found, if it is not the first. -/
def searched? (state : State) (path : Bytes) : Option Bytes :=
  let isPlain := path.head? != some '/' && path.head? != some '.'
  let places := ((state.textOf? "CDPATH").getD []).splitBy fun a b => a != ':' && b != ':'
  if !isPlain then none
  else (places.filter (· != [':'])).findSome? fun place =>
    let full := place ++ '/' :: path
    if state.files.isDirectory (pathOf full) then some full else none

def enter (path : Bytes) : Act Unit := do
  match searched? (← get) path with
  | some full =>
    if ← change "cd" full then
      printDirectory
      Act.succeed
    else Act.fail
  | none => if ← change "cd" (if path.isEmpty then ['.'] else path) then Act.succeed else Act.fail

def cd (words : List Bytes) : Act Unit :=
  Act.withOptions "cd" "LPe@" "" words fun options => do
    let missing (name : String) : Act Unit := do
      Act.complainOf "cd" s!"{name} not set"
      Act.fail
    match options.operands with
    | [] =>
      match (← get).textOf? "HOME" with
      | some home => enter home
      | none => missing "HOME"
    | [['-']] =>
      match (← get).textOf? "OLDPWD" with
      | some old =>
        enter old
        if (← get).status = 0 then discard (Act.write 1 (old ++ ['\n']))
      | none => missing "OLDPWD"
    | [path] => enter path
    | _ =>
      Act.complainOf "cd" "too many arguments"
      Act.fail

def pwd (words : List Bytes) : Act Unit :=
  Act.withOptions "pwd" "LP" "" words fun _ => do
    printDirectory
    Act.succeed

/-! ## The stack -/

/-- The stack with the working directory in front. -/
def stack (state : State) : List Bytes := state.workingDirectory :: state.directories

/-- A directory with a tilde for the home directory. -/
def abbreviated (state : State) (path : Bytes) : Bytes :=
  match state.textOf? "HOME" with
  | some home =>
    let rest := path.drop home.length
    let isWithin := home.isPrefixOf path && (rest.isEmpty || rest.head? = some '/')
    if !home.isEmpty && isWithin then '~' :: rest else path
  | none => path

def printStack : Act Unit := do
  let state ← get
  let shownStack := (stack state).map (abbreviated state)
  discard (Act.write 1 ([' '].intercalate shownStack ++ ['\n']))

/-- The place in the stack that a word such as `+1` means. -/
def stackIndex? (state : State) (word : Bytes) : Option Nat :=
  let size := (stack state).length
  match word with
  | sign :: digits =>
    if (sign != '+' && sign != '-') || digits.isEmpty || !digits.all Char.isDigit then none
    else
      let n := numberOf digits
      if size ≤ n then none else some (if sign = '+' then n else size - 1 - n)
  | [] => none

/-- Makes a list the stack, of which the first is the new working directory. -/
def restack (builtin : String) (directories : List Bytes) : Act Unit := do
  match directories with
  | [] => Act.fail
  | first :: others =>
    if ← change builtin first then
      modify fun state => { state with directories := others }
      printStack
      Act.succeed
    else Act.fail

def pushd (words : List Bytes) : Act Unit := do
  let state ← get
  let quiet := words.contains ['-', 'n']
  match words.filter (· != ['-', 'n']) with
  | [] =>
    match stack state with
    | first :: second :: rest => restack "pushd" (second :: first :: rest)
    | _ =>
      Act.complainOf "pushd" "no other directory"
      Act.fail
  | word :: _ =>
    match stackIndex? state word with
    | some n => restack "pushd" ((stack state).drop n ++ (stack state).take n)
    | none =>
      if quiet then
        modify fun state => { state with directories := word :: state.directories }
        printStack
        Act.succeed
      else restack "pushd" (word :: stack state)

def popd (words : List Bytes) : Act Unit := do
  let state ← get
  let word := (words.filter (· != ['-', 'n'])).headD ['+', '0']
  if state.directories.isEmpty then
    Act.complainOf "popd" "directory stack empty"
    Act.fail
  else match stackIndex? state word with
    | some 0 => restack "popd" state.directories
    | some n =>
      modify fun state => { state with directories := state.directories.eraseIdx (n - 1) }
      printStack
      Act.succeed
    | none =>
      Act.complainOf "popd" s!"{shown word}: directory stack index out of range"
      Act.fail

def dirs (words : List Bytes) : Act Unit :=
  let given := words.filter fun word => word.head? != some '+'
  Act.withOptions "dirs" "clpv" "" given fun options => do
    let state ← get
    if options.has 'c' then
      modify fun state => { state with directories := [] }
      Act.succeed
    else
      let shownStack := (stack state).map fun path =>
        if options.has 'l' then path else abbreviated state path
      let lines := shownStack.zipIdx.flatMap fun (path, n) =>
        if options.has 'v' then (decimalOf n).leftpad 2 ' ' ++ ' ' :: ' ' :: path ++ ['\n']
        else path ++ ['\n']
      let text := if options.has 'v' || options.has 'p' then lines
        else [' '].intercalate shownStack ++ ['\n']
      match words.findSome? (stackIndex? state) with
      | some n => discard (Act.write 1 (shownStack.getD n [] ++ ['\n']))
      | none => discard (Act.write 1 text)
      Act.succeed

end Provision.Shell.Builtin
