import Provision.Machine
import Provision.Shell.Evaluation
import Provision.Shell.Execution
import Provision.Shell.Grammar

/-!
# Running scripts

The parts of the shell put together. A script is read and run line by line, so what stands before a
fault in its grammar has run, and `run` gives what a whole script leaves behind.
-/

namespace Provision.Shell

/-! ## Faults in the grammar -/

/-- One line of a text, by its number. -/
def lineOf (text : Bytes) (n : Nat) : Bytes :=
  (text.splitBy fun a b => a != '\n' && b != '\n').filter (· != ['\n']) |>.getD (n - 1) []

/-- What a fault is called, and the line that is shown with it. -/
def Flaw.report (flaw : Flaw) (text : Bytes) (first : Nat) : Nat × String × Option Bytes :=
  match flaw with
  | unexpected token line | substituted token line | element token line _ =>
    (line, s!"syntax error near unexpected token {backquote}{shown token}{apostrophe}",
      some (lineOf text (line + 1 - first)))
  | unfinished line =>
    -- The end stands on a line of its own.
    let last := if text.getLast? = some '\n' then line else line + 1
    (last, "syntax error: unexpected end of file", none)
  | unclosed closer line =>
    (line, s!"unexpected EOF while looking for matching {backquote}{closer}{apostrophe}", none)
  | openArray line =>
    (line, s!"unexpected EOF while looking for matching {backquote}){apostrophe}", none)

/-- Reports a fault, which ends the text that is being read. -/
def reportFlaw (flaw : Flaw) (text : Bytes) (first : Nat) : Act Unit := do
  let state ← get
  let (line, problem, shownLine?) := flaw.report text first
  let start := s!"{shown state.label}: {state.reading}line {line}: "
  discard (Act.write 2 (bytesOfString s!"{start}{problem}\n"))
  if let some text := shownLine? then
    discard (Act.write 2 (bytesOfString s!"{start}{backquote}{shown text}{apostrophe}\n"))
  match flaw with
  | .substituted _ _ =>
    Act.finish (if state.depth = 0 && !state.has "errexit" then 127 else 1)
    Act.jump .exit
  | .element _ _ _ | .openArray _ => Act.fail
  | _ => Act.finish 2

namespace Engine

variable (e : Engine)

/-- Reads and runs the lines of a text, at most `limit` of them. -/
def runLines (text : Bytes) (first : Nat) : Nat → Input → Act Unit
  | 0, _ => return
  | limit + 1, input => do
    let state ← get
    let aliases := if state.hasExtra "expand_aliases" then state.aliases else []
    let input := { input with groups := state.hasExtra "extglob", aliases }
    let grammar := grammarFor (input.rest ++ aliases.flatMap (·.2))
    match grammar.line?.run input with
    | .error flaw =>
      reportFlaw flaw text first
      if let .element _ line after := flaw then
        runLines text first limit { rest := after, line := line + 1 }
    | .ok (none, _) => return
    | .ok (some commands, rest) =>
      let passed := input.rest.take (input.rest.length - rest.rest.length)
      let last := if passed.getLast? = some '\n' then rest.line - 1 else rest.line
      modify fun state => { state with line := last }
      match ← Act.attempt (e.runAll commands) with
      | none => runLines text first limit rest
      | some .abandon =>
        -- A subshell has nothing to go on with.
        if (← get).depth = 0 then runLines text first limit rest else Act.jump .abandon
      | some jump => Act.jump jump

def runText (text : Bytes) : Act Unit := do
  let first := (← get).line
  e.runLines text first (text.length + 1) { rest := text, line := first }

end Engine

/-! ## The whole shell -/

/-- An engine for texts that are nested no deeper than `depth`. -/
def engine : Nat → Engine
  | 0 =>
    { run := fun _ => Act.die 9 false
      pieces := fun _ _ => Act.die 9 false
      calculate := fun context text =>
        let whole := shown text
        Act.abandonLine s!"{context}{whole}: expression recursion level exceeded"
      source := fun _ => Act.die 9 false }
  | depth + 1 =>
    { run := fun command state => (engine depth).execute command state
      pieces := fun quoted part state => (engine depth).part quoted part state
      calculate := fun context text state => (engine depth).valueOf context text state
      source := fun text state => (engine depth).runText text state }

/-- How deep scripts may be nested, the calls of functions included. -/
def mostDepth : Nat := 4000

/-! ## Starting and ending -/

/-- The variables that a shell starts with. -/
def initialScope (directory : Bytes) : Scope :=
  let text (name value : String) (exported : Bool) : Bytes × Binding :=
    (name.toList, { value? := some (.scalar value.toList), exported })
  [text "PATH" "/usr/local/sbin:/usr/local/bin:/usr/sbin:/usr/bin:/sbin:/bin" true,
    text "HOME" "/root" true, text "SHLVL" "1" true,
    ("PWD".toList, { value? := some (.scalar directory), exported := true }),
    ("IFS".toList, { value? := some (.scalar [' ', '\t', '\n']) }), text "PS4" "+ " false,
    text "OPTIND" "1" false, text "OPTERR" "1" false, text "BASH" "/usr/bin/bash" false,
    text "BASH_VERSION" "5.2.21(1)-release" false, text "OSTYPE" "linux-gnu" false,
    text "HOSTTYPE" "x86_64" false, text "MACHTYPE" "x86_64-pc-linux-gnu" false,
    ("UID".toList, { value? := some (.scalar ['0']), readOnly := true, integer := true }),
    ("EUID".toList, { value? := some (.scalar ['0']), readOnly := true, integer := true }),
    ("PPID".toList,
      { value? := some (.scalar (decimalOf State.parentNumber)), readOnly := true, integer := true })]

/-- Directories that every host has. -/
def commonDirectories : List Location :=
  [["tmp"], ["etc"], ["dev"], ["usr"], ["usr", "bin"], ["bin"], ["var"], ["root"], ["proc"]]

/-- The directories around the working directory, which stay when a script leaves it. -/
def directoriesAround (cwd : Location) : List Location :=
  (List.range (cwd.length + 1)).map cwd.take

/-- The files with the directories that a script may go to. -/
def furnished (files : Files) : Files :=
  let all := commonDirectories ++ directoriesAround files.cwd
  all.foldl (fun files location =>
    if (files.nodes.lookup location).isSome then files
    else { files with nodes := files.nodes ++ [(location, .directory)] }) files

/-- The files as they are without these directories. -/
def cleared (before after : Files) : Files :=
  let added := (commonDirectories ++ directoriesAround before.cwd).filter fun location =>
    (before.nodes.lookup location).isNone
  { cwd := before.cwd, nodes := after.nodes.filter fun entry => !added.contains entry.1 }

def initial (finds : String → Bool) (files : Files) : State :=
  let state : State :=
    { files := furnished files
      streams := [.source [], .sink [], .sink []]
      descriptors := [(0, 0), (1, 1), (2, 2)]
      finds
      scopes := []
      extras := Builtin.initialExtras }
  { state with scopes := [initialScope state.workingDirectory] }

/-- A script with what is trapped for its end. -/
def wholeScript (text : Bytes) : Act Unit := do
  let e := engine mostDepth
  let jump? ← Act.attempt (e.source text)
  if jump? matches some (.killed _) then Act.jump (.killed false)
  if (← e.lastTrap) matches some (.killed _) then Act.jump (.killed false)

/-- Runs a script on a machine with some programs. -/
def run (finds : String → Bool) (text : String) (files : Files) : Completion :=
  let (result, state) := (wholeScript (bytesOfString text)).run (initial finds files)
  { ending := match result with
      | .ok _ => .exited state.status
      | .error _ => .killed
    stdout := contentOf (state.written 1)
    stderr := contentOf (state.written 2)
    files := cleared files state.files
    signals := state.signals }

end Provision.Shell
