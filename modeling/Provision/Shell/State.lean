import Provision.Files
import Provision.Shell.Syntax
import Provision.Signal
import Provision.Text.Utf8

/-!
# The state of a shell

What a script changes: files and streams, which a shell shares with the shells that it starts, and
its own memory, which it does not. An action runs on a state and may end in a jump, which leaves the
commands around it.
-/

namespace Provision.Shell

/-! ## Bytes -/

def bytesOf (content : ByteArray) : Bytes := content.toList.map fun b => Char.ofNat b.toNat

def contentOf (bytes : Bytes) : ByteArray := ⟨(bytes.map fun c => c.toNat.toUInt8).toArray⟩

def bytesOfString (s : String) : Bytes := bytesOf s.toUTF8

/-- A text for a message. -/
def shown (bytes : Bytes) : String := Text.Utf8.decode (contentOf bytes)

def pathOf (bytes : Bytes) : Path := ⟨Text.Utf8.decode (contentOf bytes)⟩

/-! ## Streams -/

/-- Where bytes come from and go to. A stream may have several descriptors. -/
inductive Stream where
  | nowhere
  /-- A directory, which can be opened but not read. -/
  | directory
  /-- Bytes that are still to be read. -/
  | source (left : Bytes)
  /-- Bytes that have been written, latest first. -/
  | sink (written : List Bytes)
  | file (location : Location) (position : Nat) (appends reads writes : Bool)

/-! ## Values -/

inductive Value where
  | scalar (text : Bytes)
  | indexed (items : List (Nat × Bytes))
  | keyed (items : List (Bytes × Bytes))

/-- A variable that has been declared; it need not have a value. -/
structure Binding where
  value? : Option Value := none
  exported : Bool := false
  readOnly : Bool := false
  /-- What is assigned is calculated first. -/
  integer : Bool := false
  recase? : Option Recase := none
  /-- The value is the name of another variable. -/
  reference : Bool := false
  /-- An array that has been declared and never assigned. -/
  pending : Bool := false

abbrev Scope := List (Bytes × Binding)

/-! ## States -/

/-- A command that ran in the background. -/
structure Job where
  number : Nat
  process : Nat
  status : Nat
deriving DecidableEq

structure State where
  files : Files
  streams : List Stream
  /-- The stream behind each open descriptor. -/
  descriptors : List (Nat × Nat)
  /-- Programs that can be found. -/
  finds : String → Bool
  /-- The innermost scope first, that of the whole shell last. -/
  scopes : List Scope
  functions : List (Bytes × Command) := []
  /-- The names of the functions that are running, innermost first. -/
  callers : List Bytes := []
  positional : List Bytes := []
  name : Bytes := "bash".toList
  /-- What messages begin with. -/
  label : Bytes := "bash".toList
  options : List String := ["braceexpand", "hashall", "interactive-comments"]
  /-- The options that come back when the running function ends. -/
  optionsBefore? : Option (List String) := none
  extras : List String := ["patsub_replacement", "sourcepath"]
  traps : List (Bytes × Bytes) := []
  /-- The traps of the shell that has started this one, listed until this one sets its own. -/
  heritage : List (Bytes × Bytes) := []
  status : Nat := 0
  statuses : List Nat := []
  /-- How the last command substitution ended, if there was one in the current command. -/
  substituted? : Option Nat := none
  /-- A failure is looked at by the commands around, so it does not end the shell. -/
  guarded : Bool := false
  loops : Nat := 0
  /-- How many files are being sourced. -/
  sourcing : Nat := 0
  line : Nat := 1
  /-- How deep in subshells. -/
  depth : Nat := 0
  /-- Background jobs that have not been waited for, and how they ended. -/
  jobs : List Job := []
  /-- Jobs that have been waited for. -/
  settled : List Job := []
  lastJob? : Option Nat := none
  nextProcess : Nat := 1001
  /-- The directories below the working directory on the stack. -/
  directories : List Bytes := []
  lastArgument : Bytes := "bash".toList
  /-- How far the current word of options has been read. -/
  optionOffset : Nat := 0
  /-- The permissions that new files do not get. -/
  mask : Nat := 18
  /-- The events whose traps are running. -/
  trapping : List String := []
  /-- The status with which the shell is about to end, while its last trap runs. -/
  ending? : Option Nat := none
  aliases : List (Bytes × Bytes) := []
  /-- Builtins that are not to be found. -/
  disabled : List Bytes := []
  /-- What is being read, as messages about its grammar name it. -/
  reading : String := "-c: "
  /-- What has been sent to the program that has started the shell, first one first. -/
  signals : List Signal := []

/-- What leaves the commands around it. -/
inductive Jump where
  /-- Out of some loops. -/
  | leave (levels : Nat)
  /-- To the next turn of a loop some levels up. -/
  | next (levels : Nat)
  /-- Out of a function or a sourced script; `before` is the status that its trap sees. -/
  | return (before : Nat)
  | exit
  /-- To the next line of the script. -/
  | abandon
  /-- By a signal, and with `whole` the shell that has started this one as well. -/
  | killed (whole : Bool)
deriving DecidableEq

abbrev Act := ExceptT Jump (StateM State)

namespace State

def has (state : State) (option : String) : Bool := state.options.contains option

def hasExtra (state : State) (option : String) : Bool := state.extras.contains option

/-- The number under which the shell itself runs. -/
def ownNumber : Nat := 1000

/-- The number of the program that has started the shell. -/
def parentNumber : Nat := 999

/-! ## Reading and writing streams -/

def stream (state : State) (id : Nat) : Stream := state.streams.getD id .nowhere

def setStream (state : State) (id : Nat) (stream : Stream) : State :=
  { state with streams := state.streams.set id stream }

/-- Adds a stream and says which it is. -/
def addStream (state : State) (stream : Stream) : State × Nat :=
  ({ state with streams := state.streams ++ [stream] }, state.streams.length)

def fileContent (state : State) (location : Location) : Bytes :=
  match state.files.at? location with
  | some (.file content) => bytesOf content
  | _ => []

/-- The bytes that can still be read from a stream. -/
def available (state : State) (id : Nat) : Bytes :=
  match state.stream id with
  | .source left => left
  | .file location position _ _ _ => (state.fileContent location).drop position
  | .nowhere | .directory | .sink _ => []

/-- Passes bytes of a stream. -/
def consume (state : State) (id n : Nat) : State :=
  match state.stream id with
  | .source left => state.setStream id (.source (left.drop n))
  | .file location position appends reads writes =>
    state.setStream id (.file location (position + n) appends reads writes)
  | .nowhere | .directory | .sink _ => state

/-- Writes bytes to a stream; none if it cannot be written to. -/
def write? (state : State) (id : Nat) (bytes : Bytes) : Option State :=
  match state.stream id with
  | .nowhere => some state
  | .source _ | .directory => none
  | .sink written => some (state.setStream id (.sink (bytes :: written)))
  | .file location position appends reads writes =>
    if !writes then none
    else
      let before := state.fileContent location
      let start := if appends then before.length else position
      let content := before.take start ++ List.replicate (start - before.length) (Char.ofNat 0) ++
        bytes ++ before.drop (start + bytes.length)
      let files := state.files.put location (.file (contentOf content))
      some ({ state with files }.setStream id
        (.file location (start + bytes.length) appends reads writes))

/-- All that has been written to a stream. -/
def written (state : State) (id : Nat) : Bytes :=
  match state.stream id with
  | .sink written => written.reverse.flatten
  | _ => []

def descriptor? (state : State) (n : Nat) : Option Nat := state.descriptors.lookup n

def setDescriptor (state : State) (n : Nat) (stream : Nat) : State :=
  { state with descriptors := (n, stream) :: state.descriptors.filter (·.1 != n) }

def closeDescriptor (state : State) (n : Nat) : State :=
  { state with descriptors := state.descriptors.filter (·.1 != n) }

/-- The lowest descriptor from a number on that is not open. -/
def freeDescriptor (state : State) (least : Nat) : Nat :=
  ((List.range (state.descriptors.length + 1)).find? fun i =>
    (state.descriptor? (least + i)).isNone).elim least (least + ·)

/-! ## Variables -/

/-- The binding of a name in the innermost scope that has one. -/
def binding? (state : State) (name : Bytes) : Option Binding :=
  state.scopes.findSome? fun scope => scope.lookup name

private def putIn (scope : Scope) (name : Bytes) (binding : Binding) : Scope :=
  if (scope.lookup name).isSome then
    scope.map fun entry => if entry.1 = name then (name, binding) else entry
  else scope ++ [(name, binding)]

private def putAmong (name : Bytes) (binding : Binding) : List Scope → List Scope
  | [] => [[(name, binding)]]
  | [last] => [putIn last name binding]
  | scope :: others =>
    if (scope.lookup name).isSome then putIn scope name binding :: others
    else scope :: putAmong name binding others

/-- Binds a name where it is bound already, or else in the scope of the whole shell. -/
def bind (state : State) (name : Bytes) (binding : Binding) : State :=
  { state with scopes := putAmong name binding state.scopes }

/-- Binds a name in the innermost scope. -/
def bindHere (state : State) (name : Bytes) (binding : Binding) : State :=
  match state.scopes with
  | [] => { state with scopes := [[(name, binding)]] }
  | scope :: others => { state with scopes := putIn scope name binding :: others }

/-- The innermost scope has a binding of its own for a name. -/
def bindsHere (state : State) (name : Bytes) : Bool :=
  (state.scopes.headD []).lookup name |>.isSome

private def dropFrom (name : Bytes) : List Scope → List Scope
  | [] => []
  | scope :: others =>
    if (scope.lookup name).isSome then scope.filter (·.1 != name) :: others
    else scope :: dropFrom name others

def unbind (state : State) (name : Bytes) : State :=
  { state with scopes := dropFrom name state.scopes }

/-- The text of a value where a single one is asked for. -/
def scalarOf : Value → Option Bytes
  | .scalar text => some text
  | .indexed items => items.lookup 0
  | .keyed items => items.lookup ['0']

/-- The order in which a shell keeps the keys of an array. -/
def keyHash (key : Bytes) : Nat :=
  key.foldl (fun n c => Nat.xor (n * 16777619 % 0x100000000) c.toNat) 2166136261 % 1024

/-- The elements of a value with their subscripts, in order. -/
def elementsOf : Value → List (Bytes × Bytes)
  | .scalar text => [(['0'], text)]
  | .indexed items => items.map fun (i, text) => (decimalOf i, text)
  | .keyed items =>
    items.reverse.mergeSort fun a b => keyHash a.1 ≤ keyHash b.1

/-- The separators of fields. -/
def separators (state : State) : Bytes :=
  match state.binding? "IFS".toList with
  | some { value? := some value, .. } => (scalarOf value).getD []
  | _ => [' ', '\t', '\n']

def textOf? (state : State) (name : String) : Option Bytes :=
  ((state.binding? name.toList).bind (·.value?)).bind scalarOf

def setText (state : State) (name : String) (text : Bytes) : State :=
  let binding := (state.binding? name.toList).getD {}
  state.bind name.toList { binding with value? := some (.scalar text) }

/-- The working directory as a text. -/
def workingDirectory (state : State) : Bytes :=
  bytesOfString ("/" ++ "/".intercalate state.files.cwd)

end State

/-! ## Actions -/

namespace Act

def finish (status : Nat) : Act Unit := modify fun state => { state with status }

def succeed : Act Unit := finish 0

def fail : Act Unit := finish 1

def jump {α : Type} (jump : Jump) : Act α := throw jump

/-- Ends the shell by a signal, and with `whole` the one that has started it as well. -/
def die {α : Type} (signal : Nat) (whole : Bool) : Act α := do
  finish (128 + signal)
  jump (.killed whole)

/-- Writes to a descriptor; says whether that was possible. -/
def write (descriptor : Nat) (bytes : Bytes) : Act Bool := do
  let state ← get
  match (state.descriptor? descriptor).bind fun id => state.write? id bytes with
  | some after =>
    set after
    return true
  | none => return false

/-- Writes a message to the error output. -/
def complain (message : String) : Act Unit := do
  let state ← get
  let start := bytesOfString s!"{shown state.label}: line {state.line}: {message}\n"
  discard (write 2 start)

/-- Fails and gives up the current line, or the whole shell if failures end it. -/
def surrender {α : Type} : Act α := do
  fail
  jump (if (← get).has "errexit" then .exit else .abandon)

/-- Complains and gives up. -/
def abandon {α : Type} (message : String) : Act α := do
  complain message
  surrender

/-- Complains and gives up the current line, in any case no more. -/
def abandonLine {α : Type} (message : String) : Act α := do
  complain message
  fail
  jump .abandon

/-- Runs an action whatever way it ends; the jump, if there was one. -/
def attempt (action : Act Unit) : Act (Option Jump) :=
  fun state =>
    match action state with
    | (.ok _, after) => (.ok none, after)
    | (.error jump, after) => (.ok (some jump), after)

/-- Runs something afterwards, whatever way an action ends. -/
def after {α : Type} (action : Act α) (cleanUp : State → State) : Act α :=
  fun state =>
    match action state with
    | (result, after) => (result, cleanUp after)

end Act

end Provision.Shell
