import Provision.Shell.Arithmetic
import Provision.Shell.Fields

/-!
# The engine of a shell

Commands hold words, words hold commands, and values hold expressions whose values hold others. Each
part of the shell is therefore written against an `Engine`, which does what the part cannot do by
itself, and the parts are put together at the end, one level of nesting at a time.

This module holds what most parts need: variables, subshells, and what a shell captures.
-/

namespace Provision.Shell

structure Engine where
  run : Command → Act Unit
  /-- What a part of a word yields; the flag says that the part stands between double quotes. -/
  pieces : Bool → Part → Act (List Piece)
  /-- The value of an arithmetic expression; the text is put before the message of a fault. -/
  calculate : String → Bytes → Act Int
  /-- Reads a text and runs it, line by line. -/
  source : Bytes → Act Unit

namespace State

/-! ## Values of variables -/

/-- The variable that a name stands for, once references have been followed. -/
def resolve (state : State) (name : Bytes) : Bytes :=
  let rec go : Nat → Bytes → Bytes
    | 0, name => name
    | limit + 1, name =>
      match state.binding? name with
      | some { reference := true, value? := some (.scalar target), .. } => go limit target
      | _ => name
  go 8 name

/-- Variables that the shell itself keeps. -/
def ownValue? (state : State) (name : Bytes) : Option Value :=
  let number (n : Nat) : Option Value := some (.scalar (decimalOf n))
  match String.ofList name with
  | "LINENO" => number state.line
  | "SECONDS" => number 0
  -- Nobody can foretell it, so any number will do.
  | "RANDOM" | "SRANDOM" => number 17747
  | "SHELLOPTS" =>
    some (.scalar (":".intercalate (Sorted.ofList state.options)).toList)
  | "BASHOPTS" =>
    some (.scalar (":".intercalate (Sorted.ofList state.extras)).toList)
  | "BASH_VERSINFO" =>
    let words := ["5", "2", "21", "1", "release", "x86_64-pc-linux-gnu"]
    some (.indexed (words.zipIdx.map fun (word, i) => (i, word.toList)))
  | "BASHPID" => number (ownNumber + state.depth)
  | "BASH_SUBSHELL" => number state.depth
  | "_" => some (.scalar state.lastArgument)
  | "FUNCNAME" =>
    if state.callers.isEmpty then none
    else some (.indexed ((List.range state.callers.length).zip state.callers))
  | "PIPESTATUS" =>
    some (.indexed ((List.range state.statuses.length).zip (state.statuses.map decimalOf)))
  | _ => none

def value? (state : State) (name : Bytes) : Option Value :=
  let name := state.resolve name
  match state.ownValue? name with
  | some value => some value
  | none => (state.binding? name).bind (·.value?)

/-- The letters of the options that are set. -/
def flags (state : State) : Bytes :=
  let letters : List (String × Char) :=
    [("allexport", 'a'), ("errexit", 'e'), ("noglob", 'f'), ("hashall", 'h'), ("noexec", 'n'),
      ("nounset", 'u'), ("verbose", 'v'), ("xtrace", 'x'), ("braceexpand", 'B'), ("noclobber", 'C'),
      ("errtrace", 'E'), ("histexpand", 'H'), ("physical", 'P'), ("functrace", 'T')]
  (letters.filter fun (name, _) => state.has name).map (·.2) ++ ['c']

/-- The value of a parameter that is not a variable. -/
def special? (state : State) (name : Bytes) : Option (Option Bytes) :=
  match name with
  | ['#'] => some (some (decimalOf state.positional.length))
  | ['?'] => some (some (decimalOf state.status))
  | ['$'] => some (some (decimalOf ownNumber))
  | ['-'] => some (some state.flags)
  | ['!'] => some (state.lastJob?.map decimalOf)
  | c :: _ =>
    if c.isDigit then
      let n := numberOf name
      some (if n = 0 then some state.name else state.positional[n - 1]?)
    else none
  | [] => none

/-- The text that joins the elements of a list. -/
def joint (state : State) : Bytes := state.separators.take 1

end State

/-! ## Changing values -/

namespace Value

private def insertAt (i : Nat) (text : Bytes) : List (Nat × Bytes) → List (Nat × Bytes)
  | [] => [(i, text)]
  | (j, other) :: rest =>
    if i < j then (i, text) :: (j, other) :: rest
    else if i = j then (i, text) :: rest
    else (j, other) :: insertAt i text rest

def setIndex (items : List (Nat × Bytes)) (i : Nat) (text : Bytes) : List (Nat × Bytes) :=
  insertAt i text items

def setKey (items : List (Bytes × Bytes)) (key text : Bytes) : List (Bytes × Bytes) :=
  if (items.lookup key).isSome then
    items.map fun entry => if entry.1 = key then (key, text) else entry
  else items ++ [(key, text)]

/-- The items of a value as an indexed array. -/
def items : Value → List (Nat × Bytes)
  | .scalar text => [(0, text)]
  | .indexed items => items
  | .keyed _ => []

/-- The first index behind all elements. -/
def next (items : List (Nat × Bytes)) : Nat := (items.getLast?.map fun item => item.1 + 1).getD 0

end Value

def recased (kind : Recase) (c : Char) : Char :=
  match kind with
  | .upper => c.toUpper
  | .lower => c.toLower
  | .flip => if c.isUpper then c.toLower else c.toUpper

namespace Engine

variable (e : Engine)

/-- Runs commands one after the other. -/
def runAll (commands : List Command) : Act Unit := commands.forM e.run

/-! ## Texts -/

def allPieces (quoted : Bool) (parts : List Part) : Act (List Piece) := do
  return (← parts.mapM (e.pieces quoted)).flatten

/-- A leading tilde as the directory that it stands for. -/
def tilde? (state : State) (text : Bytes) : Option (Bytes × Bytes) :=
  match text with
  | '~' :: rest =>
    let user := rest.takeWhile (· != '/')
    let after := rest.drop user.length
    match user with
    | [] => some ((state.textOf? "HOME").getD "/root".toList, after)
    | ['+'] => some ((state.textOf? "PWD").getD [], after)
    | ['-'] => (state.textOf? "OLDPWD").map fun old => (old, after)
    | _ => if user = "root".toList then some ("/root".toList, after) else none
  | _ => none

/-- A text in which a tilde may stand at the start and behind each colon. -/
def tildeParts (state : State) (text : Bytes) : List Part :=
  if !text.contains '~' then [.plain text]
  else
    let texts := text.splitBy fun a b => a != ':' && b != ':'
    texts.map fun piece =>
      match tilde? state piece with
      | some (directory, after) => .quoted (directory ++ after)
      | none => .plain piece

/-- How much of a text stands before the value, if it is written like an assignment. -/
def valueOffset? (text : Bytes) : Option Nat :=
  let name := text.takeWhile isNameChar
  if !isName name then none
  else match text.drop name.length with
    | '=' :: _ => some (name.length + 1)
    | '+' :: '=' :: _ => some (name.length + 2)
    | _ => none

/-- The pieces of a word, a tilde in front of it expanded. -/
def wordPieces (parts : List Part) : Act (List Piece) := do
  let state ← get
  match parts with
  | .plain text :: rest =>
    match tilde? state text with
    | some (directory, after) =>
      -- A quoted rest of the name is no name of a user.
      if after.isEmpty && !rest.isEmpty then e.allPieces false parts
      else
        let more ← e.allPieces false (.plain after :: rest)
        return Piece.ofText .quoted directory ++ more
    | none =>
      match valueOffset? text with
      | some n => e.allPieces false (.plain (text.take n) :: tildeParts state (text.drop n) ++ rest)
      | none => e.allPieces false parts
  | _ => e.allPieces false parts

/-- A word as one text. -/
def text (parts : List Part) : Act Bytes := return Piece.text (← e.wordPieces parts)

/-- A text of which it is known which characters are quoted. -/
def marked (parts : List Part) : Act (List Marked) := return Piece.marked (← e.wordPieces parts)

def pattern (parts : List Part) : Act (List Pattern) := do
  return Pattern.ofMarked ((← get).hasExtra "extglob") (← e.marked parts)

/-- The value of an assignment, in which a tilde may also follow a colon. -/
def assignedText (parts : List Part) : Act Bytes := do
  match parts with
  | .plain text :: rest => e.text (tildeParts (← get) text ++ rest)
  | _ => e.text parts

/-! ## Subshells -/

/-- The traps that a subshell starts with: signals stay ignored, and some events are passed on. -/
def passedOn (state : State) : List (Bytes × Bytes) :=
  state.traps.filter fun (name, action) =>
    match String.ofList name with
    | "EXIT" => false
    | "ERR" => state.has "errtrace"
    | "DEBUG" | "RETURN" => state.has "functrace"
    | _ => action.isEmpty

/-- Runs what is trapped for the end of the shell, which keeps its status unless the trap ends it
with another. -/
def lastTrap : Act (Option Jump) := do
  let state ← get
  match state.traps.lookup "EXIT".toList with
  | none => return none
  | some action =>
    modify fun state =>
      let others := state.traps.filter (·.1 != "EXIT".toList)
      { state with traps := others, ending? := some state.status }
    let jump? ← Act.attempt (e.source action)
    if jump? matches none | some .abandon | some (.return _) then Act.finish state.status
    return jump?

/-- Runs something in a process of its own, some levels deeper. A jump out of it is its end, and so
is the end of its commands; what it leaves behind are files, streams and a status. -/
def process (levels : Nat) (body : Act Unit) : Act Unit := do
  let outer ← get
  modify fun state =>
    { state with
      depth := state.depth + levels
      traps := passedOn state
      ending? := none
      heritage := if state.heritage.isEmpty then state.traps else state.heritage
      loops := 0
      jobs := [] }
  let jump? ← Act.attempt body
  -- What was trapped in the process itself runs at its end.
  let last? ← if jump? matches some (.killed _) then pure jump? else e.lastTrap
  modify fun inner =>
    { outer with
      files := { inner.files with cwd := outer.files.cwd }
      streams := inner.streams
      status := inner.status
      nextProcess := inner.nextProcess
      signals := inner.signals }
  if last? = some (.killed true) then Act.jump (.killed (outer.depth != 0))

def subshell (body : Act Unit) : Act Unit := e.process 1 body

/-- What a subshell writes to its output. -/
def capture (body : Act Unit) : Act Bytes := do
  let (state, id) := (← get).addStream (.sink [])
  let descriptors := state.descriptors
  set (state.setDescriptor 1 id)
  e.subshell body
  modify fun state => { state with descriptors }
  return (← get).written id

/-- The output of a subshell as a value: without its last line ends and without zero bytes. -/
def captureText (body : Act Unit) : Act Bytes := do
  let loops := (← get).loops
  let output ← e.capture do
    modify fun state =>
      let kept (option : String) : Bool := option != "errexit" || state.hasExtra "inherit_errexit"
      { state with loops, options := state.options.filter kept }
    body
  modify fun state => { state with substituted? := some state.status }
  let kept := output.filter fun c => c.toNat != 0
  return (kept.reverse.dropWhile (· = '\n')).reverse

/-! ## Faults of expansions -/

/-- Ends the shell because of a fault in an expansion. -/
def giveUp {α : Type} (message : String) : Act α := do
  Act.complain message
  let state ← get
  let status := if state.depth = 0 && !state.has "errexit" then 127 else 1
  Act.finish (state.ending?.getD status)
  Act.jump .exit

def unbound {α : Type} (name : Bytes) : Act α :=
  let refers := name.head? = some '!' && name.length != 1
  let sign := if isName name || refers then "" else "$"
  giveUp s!"{sign}{shown name}: unbound variable"

/-! ## Calculating -/

/-- The value of an expression; none, after a message, if there is something wrong with it. -/
def calculated? (context : String) (text : Bytes) : Act (Option Int) := fun state =>
  match e.calculate context text state with
  | (.ok n, after) => (.ok (some n), after)
  | (.error .abandon, after) => (.ok none, after)
  | (.error jump, after) => (.error jump, after)

/-- The value of an expression that decides what is assigned; a fault in it ends the shell. -/
def demanded (text : Bytes) : Act Int := do
  match ← e.calculated? "" text with
  | some n => return n
  | none =>
    Act.fail
    Act.jump .exit

/-! ## Subscripts -/

/-- The index that a number stands for; a negative one counts from behind. -/
def indexOf? (items : List (Nat × Bytes)) (n : Int) : Option Nat :=
  let i := if n < 0 then n + (Value.next items : Int) else n
  if i < 0 then none else some i.toNat

/-- The key of an element: a text, or a number that is calculated. -/
def key (value? : Option Value) (subscript : Bytes) : Act Bytes := do
  match value? with
  | some (.keyed _) => return subscript
  | _ =>
    let n ← e.demanded subscript
    match indexOf? (value?.elim [] Value.items) n with
    | some i => return decimalOf i
    | none => return []

def elementOf? (value : Value) (key : Bytes) : Option Bytes :=
  match value with
  | .keyed items => items.lookup key
  | other => other.items.lookup (numberOf key)

/-! ## Assigning -/

/-- Whether a variable may be changed; complains if not. -/
def mayChange (name : Bytes) : Act Bool := do
  match (← get).binding? name with
  | some { readOnly := true, .. } =>
    Act.complain s!"{shown name}: readonly variable"
    return false
  | _ => return true

/-- The text that is stored: calculated and with its letters changed as the variable demands. -/
def stored (binding : Binding) (append : Bool) (old : Bytes) (text : Bytes) : Act Bytes := do
  if binding.integer then
    let added ← e.demanded text
    let before ← if append then e.demanded old else pure 0
    return Expression.text (Expression.wrap (before + added))
  else
    let whole := if append then old ++ text else text
    return match binding.recase? with
      | some kind => whole.map (recased kind)
      | none => whole

private def exporting (state : State) (binding : Binding) : Binding :=
  if state.has "allexport" then { binding with exported := true } else binding

/-- Assigns a text to a variable or to an element; false if that is not allowed. -/
def assign (name : Bytes) (subscript? : Option Bytes) (append : Bool) (text : Bytes) :
    Act Bool := do
  let name := (← get).resolve name
  if !(← mayChange name) then return false
  let state ← get
  let binding := exporting state ((state.binding? name).getD {})
  let subscript? := match subscript?, binding.value? with
    | none, some (.indexed _) => some ['0']
    | none, some (.keyed _) => some ['0']
    | given, _ => given
  match subscript? with
  | none =>
    let old := (binding.value?.bind State.scalarOf).getD []
    let text ← e.stored binding append old text
    modify fun state => state.bind name { binding with value? := some (.scalar text) }
    if name = "OPTIND".toList then modify fun state => { state with optionOffset := 0 }
    return true
  | some subscript =>
    let key ← e.key binding.value? subscript
    if key.isEmpty && !(binding.value? matches some (.keyed _)) then
      Act.complain s!"{shown name}[{shown subscript}]: bad array subscript"
      return false
    let old := (binding.value?.bind (elementOf? · key)).getD []
    let text ← e.stored binding append old text
    let value : Value := match binding.value? with
      | some (.keyed items) => .keyed (Value.setKey items key text)
      | other =>
        let i := numberOf key
        .indexed (Value.setIndex (other.elim [] Value.items) i text)
    modify fun state => state.bind name { binding with value? := some value }
    return true

/-- Assigns the elements of an array. -/
def assignArray (name : Bytes) (append : Bool) (elements : List (Option Bytes × Bool × Bytes)) :
    Act Bool := do
  let name := (← get).resolve name
  if !(← mayChange name) then return false
  let state ← get
  let binding := exporting state ((state.binding? name).getD {})
  let keyed := binding.value? matches some (.keyed _)
  let start : Value :=
    if append then binding.value?.getD (.indexed [])
    else if keyed then .keyed [] else .indexed []
  match start with
  | .keyed items =>
    -- Elements without a subscript are keys and values in turn.
    let rec pairs : List (Option Bytes × Bool × Bytes) → List (Bytes × Bool × Bytes)
      | (some key, append, text) :: rest => (key, append, text) :: pairs rest
      | (none, _, key) :: (none, _, text) :: rest => (key, false, text) :: pairs rest
      | (none, _, key) :: rest => (key, false, []) :: pairs rest
      | [] => []
    let items ← (pairs elements).foldlM (fun items (key, append, text) => do
      let old := (items.lookup key).getD []
      return Value.setKey items key (← e.stored binding append old text)) items
    modify fun state =>
      state.bind name { binding with value? := some (.keyed items), pending := false }
  | other =>
    let (items, _) ← elements.foldlM (fun (items, next) (subscript?, append, text) => do
      let i ← match subscript? with
        | some subscript => pure ((indexOf? items (← e.demanded subscript)).getD 0)
        | none => pure next
      let old := (items.lookup i).getD []
      let text ← e.stored binding append old text
      return (Value.setIndex items i text, i + 1)) (other.items, Value.next other.items)
    modify fun state =>
      state.bind name { binding with value? := some (.indexed items), pending := false }
  return true

end Engine

end Provision.Shell
