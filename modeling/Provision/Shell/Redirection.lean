import Provision.Shell.Expansion

/-!
# Redirection

Streams are opened and put behind descriptors before a command runs, one redirection after the
other, and what was behind the descriptors comes back when the command has ended. The first
redirection that is refused keeps the command from running.
-/

namespace Provision.Shell

/-- Why a redirection is refused. -/
inductive Refusal where
  | fault (path : Bytes) (cause : Files.Fault)
  /-- There are no words, or several, where one is needed. -/
  | ambiguous (word : Bytes)
  | occupied (path : Bytes)
  | closed (descriptor : Bytes)
  | device (path : Bytes)

def Refusal.message : Refusal → String
  | .fault path cause => s!"{shown path}: {cause.reason}"
  | .ambiguous word => s!"{shown word}: ambiguous redirect"
  | .occupied path => s!"{shown path}: cannot overwrite existing file"
  | .closed descriptor => s!"{shown descriptor}: Bad file descriptor"
  | .device path => s!"{shown path}: No such device or address"

namespace State

/-! ## Opening -/

/-- The descriptor that a path stands for. -/
def descriptorOf? (path : Bytes) : Option Nat :=
  match String.ofList path with
  | "/dev/stdin" => some 0
  | "/dev/stdout" => some 1
  | "/dev/stderr" => some 2
  | _ =>
    let digits := path.drop "/dev/fd/".length
    if "/dev/fd/".toList.isPrefixOf path && !digits.isEmpty && digits.all Char.isDigit then
      some (numberOf digits)
    else none

/-- Opens a file that is to be written to, and makes it if it is not there. -/
def openOutput (state : State) (opening : Opening) (path : Bytes) :
    Except Refusal (State × Nat) := do
  match state.files.writable (pathOf path) with
  | .error fault => throw (.fault path fault)
  | .ok location =>
    let content? := match state.files.at? location with
      | some (.file content) => some content
      | _ => none
    if opening = .overwrite && state.has "noclobber" && content?.isSome then
      throw (.occupied path)
    let keeps := opening = .append || opening = .readWrite
    let content := if keeps then content?.getD ByteArray.empty else ByteArray.empty
    let opened := { state with files := state.files.put location (.file content) }
    return opened.addStream (.file location 0 (opening == .append) (opening == .readWrite) true)

/-- Opens a file that is to be read. A directory can be opened, but there is nothing to read. -/
def openInput (state : State) (path : Bytes) : Except Refusal (State × Nat) := do
  match state.files.stat (pathOf path) with
  | .error fault => throw (.fault path fault)
  | .ok .directory => return state.addStream .directory
  | .ok (.file _) =>
    match state.files.locate (pathOf path) with
    | .ok (.entry location) => return state.addStream (.file location 0 false true false)
    | _ => throw (.fault path .notFound)

/-- Opens a path and says which stream it has become. -/
def openStream (state : State) (opening : Opening) (path : Bytes) : Except Refusal (State × Nat) :=
  if path = "/dev/null".toList then .ok (state.addStream .nowhere)
  else if path = "/dev/tty".toList then .error (.device path)
  else match descriptorOf? path with
    | some n =>
      match state.descriptor? n with
      | some id => .ok (state, id)
      | none => .error (.fault path .notFound)
    | none => if opening = .read then state.openInput path else state.openOutput opening path

end State

namespace Engine

variable (e : Engine)

/-- The text of a word as a message shows it. -/
def asWritten (parts : List Part) : Bytes :=
  parts.flatMap fun part =>
    match part with
    | .plain text | .quoted text => text
    | .parameter (.mk false name none) .value => '$' :: name
    | .double [.parameter (.mk false name none) .value] => '"' :: '$' :: name ++ ['"']
    | _ => []

/-! ## Redirecting -/

abbrev Redirecting := ExceptT Refusal Act

/-- The one word that a word of a redirection stands for. -/
def pathWord (parts : List Part) : Redirecting Bytes := do
  match ← (e.words parts : Act (List Bytes)) with
  | [word] => return word
  | _ => throw (.ambiguous (asWritten parts))

/-- The number of a descriptor. One that is to be stored in a variable is chosen from ten on. -/
def descriptorNumber (target : Descriptor) : Redirecting Nat := do
  match target with
  | .number n => return n
  | .stored name => do
    let n := (← get).freeDescriptor 10
    discard (e.assign name none false (decimalOf n) : Act Bool)
    return n

/-- The number that a variable holds, if a descriptor is to be closed. -/
def storedNumber (target : Descriptor) : Redirecting Nat := do
  match target with
  | .number n => return n
  | .stored name =>
    let digits := (((← get).value? name).bind State.scalarOf).getD []
    return numberOf digits

def openPath (opening : Opening) (path : Bytes) : Redirecting Nat := do
  match (← get).openStream opening path with
  | .ok (state, id) =>
    set state
    return id
  | .error refusal => throw refusal

def openBoth (append : Bool) (path : Bytes) : Redirecting Unit := do
  let id ← openPath (if append then .append else .overwrite) path
  modify fun state => (state.setDescriptor 1 id).setDescriptor 2 id

/-- Puts a text behind a descriptor. -/
def supply (target : Descriptor) (text : Bytes) : Redirecting Unit := do
  let (state, id) := (← get).addStream (.source text)
  set state
  let n ← e.descriptorNumber target
  modify fun state => state.setDescriptor n id

def redirectOne : Redirect → Redirecting Unit
  | .file target opening path => do
    let path ← e.pathWord path
    let id ← openPath opening path
    let n ← e.descriptorNumber target
    modify fun state => state.setDescriptor n id
  | .both append path => do openBoth append (← e.pathWord path)
  | .document target content => do e.supply target (← (e.text content : Act Bytes))
  | .text target word => do e.supply target ((← (e.text word : Act Bytes)) ++ ['\n'])
  | .duplicate target orBoth source => do
    let word ← e.pathWord source
    let digits := word.takeWhile Char.isDigit
    let moves := word.getLast? = some '-' && digits.length + 1 = word.length
    if word = ['-'] then
      let n ← storedNumber target
      modify fun state => state.closeDescriptor n
    else if !digits.isEmpty && (digits.length = word.length || moves) then
      let given := numberOf digits
      match (← get).descriptor? given with
      | none => throw (.closed digits)
      | some id =>
        let n ← e.descriptorNumber target
        modify fun state => state.setDescriptor n id
        if moves && n != given then modify fun state => state.closeDescriptor given
    else if orBoth && !word.isEmpty then openBoth false word
    else throw (.ambiguous (asWritten source))

/-- The descriptors that variables hold stay open when the command has ended. -/
def keptDescriptors (redirects : List Redirect) (state : State) : List (Nat × Nat) :=
  let names := redirects.filterMap fun redirect =>
    match redirect with
    | .file (.stored name) _ _ => some name
    | .document (.stored name) _ | .text (.stored name) _ => some name
    | .duplicate (.stored name) _ _ => some name
    | _ => none
  names.filterMap fun name =>
    let digits := ((state.value? name).bind State.scalarOf).getD []
    let n := numberOf digits
    (state.descriptor? n).map fun id => (n, id)

/-- Opens all streams; false, with a message, if one is refused. -/
def redirectAll (redirects : List Redirect) : Act Bool := do
  match ← (redirects.forM e.redirectOne : Redirecting Unit).run with
  | .ok _ => return true
  | .error refusal =>
    Act.complain refusal.message
    return false

/-- Runs an action with its streams redirected, or another if a redirection is refused. -/
def redirectedOr (refused : Act Unit) (redirects : List Redirect) (body : Act Unit) : Act Unit := do
  if redirects.isEmpty then body
  else
    let before := (← get).descriptors
    let restore (state : State) : State :=
      let kept := keptDescriptors redirects state
      { state with descriptors := kept ++ before.filter fun d => (kept.lookup d.1).isNone }
    Act.after (do if ← e.redirectAll redirects then body else refused) restore

/-- Runs an action with its streams redirected; a refusal fails instead. -/
def redirected (redirects : List Redirect) (body : Act Unit) : Act Unit :=
  e.redirectedOr Act.fail redirects body

end Engine

end Provision.Shell
