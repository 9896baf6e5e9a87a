import Provision.Shell.Engine
import Provision.Shell.Options

/-!
# Names of commands

A name can be that of a function, of a builtin, of a word of the language, or of a program. This
module holds the builtins that tell which it is.
-/

namespace Provision.Shell.Builtin

def keywords : List String :=
  ["if", "then", "else", "elif", "fi", "case", "esac", "for", "select", "while", "until", "do",
    "done", "in", "function", "time", "\x7b", "\x7d", "!", "[[", "]]", "coproc"]

/-- All builtins. -/
def names : List String :=
  [".", ":", "[", "alias", "bg", "bind", "break", "builtin", "caller", "cd", "command", "compgen",
    "complete", "compopt", "continue", "declare", "dirs", "disown", "echo", "enable", "eval",
    "exec", "exit", "export", "false", "fc", "fg", "getopts", "hash", "help", "history", "jobs",
    "kill", "let", "local", "logout", "mapfile", "popd", "printf", "pushd", "pwd", "read",
    "readarray", "readonly", "return", "set", "shift", "shopt", "source", "suspend", "test",
    "times", "trap", "true", "type", "typeset", "ulimit", "umask", "unalias", "unset", "wait"]

def isBuiltin (state : State) (name : Bytes) : Bool :=
  names.contains (String.ofList name) && !state.disabled.contains name

/-- What a name is the name of. -/
inductive Meaning where
  | keyword
  | function
  | builtin
  | program (path : Bytes)

/-- The path of a program that can be found. -/
def program? (state : State) (name : Bytes) : Option Bytes :=
  if state.finds (shown name) then some ("/usr/bin/".toList ++ name) else none

def meaning? (state : State) (functions : Bool) (name : Bytes) : Option Meaning :=
  if keywords.contains (String.ofList name) then some .keyword
  else if functions && (state.functions.lookup name).isSome then some .function
  else if isBuiltin state name then some .builtin
  else (program? state name).map .program

def Meaning.word : Meaning → String
  | keyword => "keyword"
  | function => "function"
  | builtin => "builtin"
  | program _ => "file"

def Meaning.sentence (name : Bytes) : Meaning → String
  | keyword => s!"{shown name} is a shell keyword"
  | function => s!"{shown name} is a function"
  | builtin => s!"{shown name} is a shell builtin"
  | program path => s!"{shown name} is {shown path}"

def printLine (text : String) : Act Unit := discard (Act.write 1 (bytesOfString s!"{text}\n"))

/-- Says what a name is, as `type` does; false if it is nothing. -/
def tellOne (options : Options) (name : Bytes) : Act Bool := do
  let state ← get
  let onlyPrograms := options.has 'P'
  let found? := if onlyPrograms then (program? state name).map Meaning.program
    else meaning? state (!options.has 'f') name
  match found? with
  | none =>
    if !options.has 't' && !options.has 'p' && !onlyPrograms then
      Act.complainOf "type" s!"{shown name}: not found"
    return false
  | some meaning =>
    if options.has 't' then printLine meaning.word
    else if options.has 'p' || onlyPrograms then
      match meaning with
      | .program path => printLine (shown path)
      | _ => pure ()
    else printLine (meaning.sentence name)
    return true

def tell (words : List Bytes) : Act Unit :=
  Act.withOptions "type" "afptP" "" words fun options => do
    let done ← options.operands.foldlM (fun done name =>
      return (← tellOne options name) && done) true
    if done then Act.succeed else Act.fail

/-- Says what names are, as `command -v` and `command -V` do. -/
def describe (long : Bool) (words : List Bytes) : Act Unit := do
  let state ← get
  for name in words do
    match meaning? state true name with
    | some meaning =>
      let short := match meaning with
        | .program path => shown path
        | _ => shown name
      printLine (if long then meaning.sentence name else short)
    | none => if long then Act.complainOf "command" s!"{shown name}: not found"
  if words.isEmpty || words.any fun name => (meaning? state true name).isSome then Act.succeed
  else Act.fail

def hash (words : List Bytes) : Act Unit :=
  Act.withOptions "hash" "lrtd" "p" words fun options => do
    let state ← get
    if options.operands.isEmpty && options.given.isEmpty then printLine "hash: hash table empty"
    let missing := options.operands.filter fun name =>
      (program? state name).isNone && !isBuiltin state name
    for name in missing do Act.complainOf "hash" s!"{shown name}: not found"
    if missing.isEmpty || options.has 'r' then Act.succeed else Act.fail

/-- Makes builtins that can be found or cannot. -/
def enable (words : List Bytes) : Act Unit :=
  Act.withOptions "enable" "adnps" "f" words fun options => do
    let unknown := options.operands.filter fun name => !names.contains (String.ofList name)
    for name in unknown do Act.complainOf "enable" s!"{shown name}: not a shell builtin"
    let known := options.operands.filter fun name => names.contains (String.ofList name)
    modify fun state =>
      let others := state.disabled.filter fun name => !known.contains name
      { state with disabled := if options.has 'n' then others ++ known else others }
    if options.operands.isEmpty && !options.has 'n' then
      for name in names do printLine s!"enable {name}"
    if unknown.isEmpty then Act.succeed else Act.fail

/-! ## Aliases -/

def aliasLine (name text : Bytes) : Bytes :=
  "alias ".toList ++ name ++ '=' :: singleQuote text ++ ['\n']

/-- Defines aliases, or lists them in the order of their names. -/
def defineAlias (words : List Bytes) : Act Unit := do
  let words := words.filter (· != ['-', 'p'])
  if words.isEmpty then
    let sorted := (← get).aliases.mergeSort fun a b => inOrder a.1 b.1
    for (name, text) in sorted do discard (Act.write 1 (aliasLine name text))
    Act.succeed
  else
    let done ← words.foldlM (fun done word => do
      let name := word.takeWhile (· != '=')
      if name.length < word.length && !name.isEmpty then
        modify fun state =>
          let others := state.aliases.filter (·.1 != name)
          { state with aliases := others ++ [(name, word.drop (name.length + 1))] }
        return done
      else match (← get).aliases.lookup word with
        | some text =>
          discard (Act.write 1 (aliasLine word text))
          return done
        | none =>
          Act.complainOf "alias" s!"{shown word}: not found"
          return false) true
    if done then Act.succeed else Act.fail

def removeAlias (words : List Bytes) : Act Unit :=
  Act.withOptions "unalias" "a" "" words fun options => do
    let known := (← get).aliases.map (·.1)
    let missing := options.operands.filter fun name => !known.contains name
    for name in missing do Act.complainOf "unalias" s!"{shown name}: not found"
    modify fun state =>
      { state with aliases :=
          if options.has 'a' then []
          else state.aliases.filter fun entry => !options.operands.contains entry.1 }
    if missing.isEmpty then Act.succeed else Act.fail

end Provision.Shell.Builtin
