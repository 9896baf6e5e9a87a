import Provision.Shell.Builtin.Directories
import Provision.Shell.Builtin.Flow
import Provision.Shell.Builtin.Names
import Provision.Shell.Builtin.Output
import Provision.Shell.Builtin.Signals
import Provision.Shell.Builtin.Variables
import Provision.Shell.Redirection

/-!
# Invocation

A command is called by its name, which is that of a function, of a builtin, or of a file, and it is
looked for in this order.
-/

namespace Provision.Shell.Engine

variable (e : Engine)

/-! ## Functions -/

/-- Runs what is trapped for an event, if it is not running already. The status stays as it is. -/
def runTrap (event : String) : Act Unit := do
  let state ← get
  match state.traps.lookup event.toList with
  | some action =>
    if !state.trapping.contains event then
      modify fun state => { state with trapping := event :: state.trapping }
      Act.after (e.source action) fun after => { after with trapping := state.trapping }
      modify fun after => { after with status := state.status, statuses := state.statuses }
  | none => return

/-- Runs the body of a function or a sourced script, which may trap its own end. It does not know
what is trapped outside for an event. -/
def untilReturn (event : String) (body : Act Unit) : Act Unit := do
  let before ← get
  let kept? := if before.has "functrace" then none else before.traps.lookup event.toList
  let others (state : State) := state.traps.filter (·.1 != event.toList)
  if kept?.isSome then modify fun state => { state with traps := others state }
  match ← Act.attempt body with
  | none => e.runTrap "RETURN"
  | some (.return status) =>
    let after ← get
    Act.finish status
    e.runTrap "RETURN"
    Act.finish after.status
  | some jump => Act.jump jump
  if let some action := kept? then
    if ((← get).traps.lookup event.toList).isNone then
      modify fun state => { state with traps := others state ++ [(event.toList, action)] }

/-- Runs a function in a scope of its own, with parameters of its own. -/
def inFunction (name : Bytes) (words : List Bytes) (body : Command) : Act Unit := do
  let before ← get
  modify fun state =>
    { state with
      scopes := [] :: state.scopes
      positional := words
      callers := name :: state.callers
      loops := 0
      optionsBefore? := none
      line := match body with
        | .compound line _ _ => line
        | _ => state.line
      label := "environment".toList }
  let restore (state : State) : State :=
    { state with
      scopes := state.scopes.drop (state.scopes.length - before.scopes.length)
      positional := before.positional
      callers := before.callers
      loops := before.loops
      line := before.line
      options := state.optionsBefore?.getD state.options
      optionsBefore? := before.optionsBefore?
      label := before.label }
  Act.after (e.untilReturn "RETURN" (e.run body)) restore

/-! ## Scripts inside scripts -/

/-- A text without commands. -/
def isIdle (text : Bytes) : Bool :=
  (text.splitBy fun a b => a != '\n' && b != '\n').all fun line =>
    (line.dropWhile fun c => isBlank c || c = '\n').head?.all (· = '#')

/-- Runs a text, the status before which its commands can see. -/
def sourceText (text : Bytes) : Act Unit := do
  if isIdle text then Act.succeed
  e.source text

/-- Reads the words of `eval` as a script. -/
def evaluateWords (words : List Bytes) : Act Unit := do
  match words with
  | ('-' :: letter :: _) :: _ =>
    if letter = '-' then run (words.drop 1)
    else
      Act.refuseOptions "eval" (.unknown letter)
      discard (Act.write 2 "eval: usage: eval [arg ...]\n".toList)
  | _ => run words
where
  run (words : List Bytes) : Act Unit := do
    let before := (← get).reading
    let text := [' '].intercalate words
    modify fun state => { state with reading := "eval: " }
    Act.after (e.sourceText text) fun state => { state with reading := before }

/-- Runs the script in a file, with parameters of its own if there are any. -/
def sourceFile (words : List Bytes) : Act Unit := do
  let words := if words.head? = some ['-', '-'] then words.drop 1 else words
  match words with
  | [] =>
    Act.complainOf "." "filename argument required"
    discard (Act.write 2 ".: usage: . filename [arguments]\n".toList)
    Act.finish 2
  | path :: given =>
    let before ← get
    match before.files.read (pathOf path) with
    | .error .isDirectory =>
      e.untilReturn "DEBUG" do
        Act.complainOf "." s!"{shown path}: is a directory"
        Act.fail
        Act.jump (.return before.status)
    | .error fault =>
      e.untilReturn "DEBUG" do
        Act.complain s!"{shown path}: {fault.reason}"
        Act.fail
        Act.jump (.return before.status)
    | .ok content =>
      modify fun state =>
        { state with
          positional := if given.isEmpty then state.positional else given
          sourcing := state.sourcing + 1
          label := path
          line := 1
          reading := "" }
      let restore (state : State) : State :=
        { state with
          positional := if given.isEmpty then state.positional else before.positional
          sourcing := before.sourcing
          line := before.line
          label := before.label
          reading := before.reading }
      Act.after (e.untilReturn "DEBUG" (e.sourceText (bytesOf content))) restore

/-! ## Programs -/

/-- Why a file is not run as a program: none of the files here may be. -/
def refusePath (path : Bytes) : Act Unit := do
  match (← get).files.stat (pathOf path) with
  | .error fault =>
    Act.complain s!"{shown path}: {fault.reason}"
    Act.finish (if fault = .notFound then 127 else 126)
  | .ok .directory =>
    Act.complain s!"{shown path}: Is a directory"
    Act.finish 126
  | .ok (.file _) =>
    Act.complain s!"{shown path}: Permission denied"
    Act.finish 126

/-- Removes files one by one; those that are not there do not matter if it is forced to. -/
def removeFiles (words : List Bytes) : Act Unit := do
  let forced := words.head? = some "-f".toList
  let operands := if forced then words.drop 1 else words
  let complain (message : String) : Act Unit := do
    discard (Act.write 2 (bytesOfString s!"rm: {message}\n"))
    Act.fail
  Act.succeed
  if operands.isEmpty && !forced then complain "missing operand"
  for path in operands do
    let state ← get
    match state.files.remove (pathOf path) with
    | .ok files => set { state with files }
    | .error fault =>
      if !forced || fault != .notFound then
        complain s!"cannot remove {apostrophe}{shown path}{apostrophe}: {fault.reason}"

/-- Calls a program by its path. The only one here that is no file removes files. -/
def callPath (path : Bytes) (words : List Bytes) : Act Unit :=
  if ["/bin/rm", "/usr/bin/rm"].contains (String.ofList path) then removeFiles words
  else refusePath path

/-- Calls what is neither a function nor a builtin. -/
def runProgram (name : Bytes) (words : List Bytes) : Act Unit := do
  let state ← get
  if name.contains '/' then callPath name words
  else match state.functions.lookup "command_not_found_handle".toList with
    | some body =>
      e.subshell (e.inFunction "command_not_found_handle".toList (name :: words) body)
    | none =>
      Act.complain s!"{shown name}: command not found"
      Act.finish 127

/-- Replaces the shell by a program, if there are words. -/
def replaceShell (words : List Bytes) : Act Unit :=
  Act.withOptions "exec" "cl" "a" words fun options => do
    match options.operands with
    | [] => return
    | name :: _ =>
      if name.contains '/' then refusePath name
      else
        Act.complainOf "exec" s!"{shown name}: not found"
        Act.finish 127
      if !(← get).hasExtra "execfail" then Act.jump .exit

/-! ## Builtins -/

def testBuiltin (name : String) (words : List Bytes) : Act Unit := do
  match (← get).testHolds words with
  | .ok holds => Act.finish (if holds then 0 else 1)
  | .error problem =>
    Act.complainOf name problem
    Act.finish 2

def bracket (words : List Bytes) : Act Unit := do
  if words.getLast? = some [']'] then testBuiltin "[" words.dropLast
  else
    Act.complainOf "[" s!"missing {backquote}]{apostrophe}"
    Act.finish 2

/-- Says that a builtin needs something that a script does not have. -/
def unavailable (name problem : String) : Act Unit := do
  Act.complainOf name problem
  Act.fail

/-- The line of the call of the running function. -/
def caller : Act Unit := do
  let state ← get
  if state.callers.isEmpty then Act.fail
  else
    Builtin.printLine s!"{state.line} NULL"
    Act.succeed

/-- What a builtin does with words; none if there is no such builtin. -/
def onWords? (name : String) (words : List Bytes) : Option (Act Unit) :=
  match name with
  | ":" | "true" | "times" | "history" | "fc" | "bind" | "complete" | "compopt" | "help" | "jobs" =>
    some Act.succeed
  | "false" => some Act.fail
  | "echo" => some (Builtin.echo words)
  | "printf" => some (Builtin.printf e words)
  | "read" => some (Builtin.read e words)
  | "mapfile" | "readarray" => some (Builtin.mapfile e name words)
  | "getopts" => some (Builtin.getopts e words)
  | "test" => some (testBuiltin "test" words)
  | "[" => some (bracket words)
  | "unset" => some (Builtin.unset e words)
  | "let" => some (Builtin.calculateAll e words)
  | "set" => some (Builtin.configure words)
  | "shopt" => some (Builtin.shopt words)
  | "shift" => some (Builtin.shift words)
  | "umask" => some (Builtin.umask words)
  | "ulimit" => some (Builtin.ulimit words)
  | "cd" => some (Builtin.cd words)
  | "pwd" => some (Builtin.pwd words)
  | "pushd" => some (Builtin.pushd words)
  | "popd" => some (Builtin.popd words)
  | "dirs" => some (Builtin.dirs words)
  | "exit" => some (Builtin.leaveShell words)
  | "return" => some (Builtin.leaveFunction words)
  | "break" => some (Builtin.leaveLoops name .leave words)
  | "continue" => some (Builtin.leaveLoops name .next words)
  | "trap" => some (Builtin.trap words)
  | "kill" => some (Builtin.kill e words)
  | "wait" => some (Builtin.wait words)
  | "type" => some (Builtin.tell words)
  | "hash" => some (Builtin.hash words)
  | "enable" => some (Builtin.enable words)
  | "alias" => some (Builtin.defineAlias words)
  | "unalias" => some (Builtin.removeAlias words)
  | "eval" => some (e.evaluateWords words)
  | "." | "source" => some (e.sourceFile words)
  | "exec" => some (replaceShell words)
  | "caller" => some caller
  | "compgen" => some Act.fail
  | "fg" | "bg" => some (unavailable name "no job control")
  | "disown" => some (unavailable name "current: no such job")
  | "suspend" => some (unavailable name "cannot suspend: no job control")
  | "logout" =>
    some (unavailable name s!"not login shell: use {backquote}exit{apostrophe}")
  | _ => none

/-- What a builtin does; none if there is no such builtin. -/
def onArguments? (name : String) (arguments : List Argument) : Option (Act Unit) :=
  match name with
  | "declare" | "typeset" | "local" => some (Builtin.declareBuiltin e name arguments)
  | "export" => some (Builtin.markBuiltin e name 'x' arguments)
  | "readonly" => some (Builtin.markBuiltin e name 'r' arguments)
  | _ => e.onWords? name (arguments.map Argument.text)

/-! ## Names -/

/-- Calls one thing by its name. -/
abbrev Call := Bytes → List Argument → Act Unit

/-- Calls a command that is no function, or says what names are. -/
def commandBuiltin (call : Call) (words : List Bytes) : Act Unit :=
  Act.withOptions "command" "pVv" "" words fun options => do
    match options.operands with
    | [] => Act.succeed
    | name :: rest =>
      let long := options.has 'V'
      if long || options.has 'v' then Builtin.describe long options.operands
      else call name (rest.map Argument.word)

def builtinBuiltin (call : Call) (words : List Bytes) : Act Unit :=
  Act.withOptions "builtin" "" "" words fun options => do
    match options.operands with
    | [] => Act.succeed
    | name :: rest =>
      if Builtin.isBuiltin (← get) name then call name (rest.map Argument.word)
      else
        Act.complainOf "builtin" s!"{shown name}: not a shell builtin"
        Act.fail

/-- Calls a command; `command` and `builtin` call another, at most `limit` times. -/
def invoke : Nat → Bool → Call
  | 0, _ => fun _ _ => Act.fail
  | limit + 1, functions => fun name arguments => do
    let state ← get
    let words := arguments.map Argument.text
    match if functions then state.functions.lookup name else none with
    | some body => e.inFunction name words body
    | none =>
      if !Builtin.isBuiltin state name then e.runProgram name words
      else match String.ofList name with
        | "command" => commandBuiltin (invoke limit false) words
        | "builtin" => builtinBuiltin (invoke limit false) words
        | plain => (e.onArguments? plain arguments).getD Act.succeed

end Provision.Shell.Engine
