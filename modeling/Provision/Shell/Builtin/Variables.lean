import Provision.Shell.Assignment
import Provision.Shell.Builtin.Input
import Provision.Shell.Grammar

/-!
# Builtins for variables

Declarations give a variable attributes and a value, for the whole shell or for the function that is
running. `unset` takes variables, elements and functions away.
-/

namespace Provision.Shell.Builtin

/-! ## Printing -/

/-- A value between double quotes, or between `$'` and `'` where that does not show it. -/
def declaredText (text : Bytes) : Bytes :=
  if text.any fun c => !isPrintable c then ansiQuote text
  else
    let special := ['$', '"', '\\', backquote]
    '"' :: (text.flatMap fun c => if special.contains c then ['\\', c] else [c]) ++ ['"']

def declaredKey (key : Bytes) : Bytes :=
  if !key.isEmpty && key.all isNameChar then key else declaredText key

/-- A variable as the declaration that makes it. -/
def declaration (name : Bytes) (binding : Binding) : Bytes :=
  let letters := Engine.attributes binding
  let start := "declare -".toList ++ (if letters.isEmpty then ['-'] else letters) ++ ' ' :: name
  let items (value : Value) : List Bytes := (State.elementsOf value).map fun (key, text) =>
    '[' :: declaredKey key ++ [']', '='] ++ declaredText text
  let value := match binding.value? with
    | none => []
    | some (.scalar text) => '=' :: declaredText text
    | some (.indexed found) =>
      if found.isEmpty && binding.pending then []
      else "=(".toList ++ [' '].intercalate (items (.indexed found)) ++ [')']
    | some (.keyed found) =>
      if found.isEmpty then (if binding.pending then [] else "=()".toList)
      else "=(".toList ++ [' '].intercalate (items (.keyed found)) ++ " )".toList
  start ++ value ++ ['\n']

/-- The names of all variables for which something holds, in order. -/
def namesWhere (state : State) (p : Binding → Bool) : List Bytes :=
  let names := (state.scopes.flatMap fun scope => scope.map (·.1)).eraseDups
  (names.filter fun name => (state.binding? name).any p).mergeSort inOrder

def printDeclarations (names : List Bytes) : Act Unit := do
  let state ← get
  for name in names do
    match state.binding? name with
    | some binding => discard (Act.write 1 (declaration name binding))
    | none => pure ()

/-! ## Attributes -/

/-- How a builtin declares. -/
structure Manner where
  builtin : String
  /-- Letters of attributes, and whether each is given or taken. -/
  changes : List (Bool × Char)
  /-- In the innermost scope. -/
  isLocal : Bool := false

namespace Manner

def gives (manner : Manner) (letter : Char) : Bool := manner.changes.contains (true, letter)

def takes (manner : Manner) (letter : Char) : Bool := manner.changes.contains (false, letter)

/-- An attribute after the changes. -/
def changed (manner : Manner) (letter : Char) (before : Bool) : Bool :=
  if manner.gives letter then true else if manner.takes letter then false else before

/-- The value that becomes an array if it is to be one. -/
def shaped (manner : Manner) (binding : Binding) : Binding :=
  match manner.gives 'a', manner.gives 'A', binding.value? with
  | true, _, none => { binding with value? := some (.indexed []), pending := true }
  | true, _, some (.scalar text) => { binding with value? := some (.indexed [(0, text)]) }
  | _, true, none => { binding with value? := some (.keyed []), pending := true }
  | _, true, some (.scalar text) => { binding with value? := some (.keyed [(['0'], text)]) }
  | _, _, _ => binding

/-- The binding with its attributes, except that it cannot be changed. -/
def attributed (manner : Manner) (binding : Binding) : Binding :=
  let recase? : Option Recase :=
    if manner.gives 'u' then some .upper
    else if manner.gives 'l' then some .lower
    else if manner.takes 'u' || manner.takes 'l' then none
    else binding.recase?
  manner.shaped
    { binding with
      integer := manner.changed 'i' binding.integer
      exported := manner.changed 'x' binding.exported
      reference := manner.changed 'n' binding.reference
      recase? }

/-- Why an array cannot become one of the other kind. -/
def mismatch? (manner : Manner) (binding : Binding) : Option String :=
  match binding.value? with
  | some (.indexed _) =>
    if manner.gives 'A' then some "cannot convert indexed to associative array" else none
  | some (.keyed _) =>
    if manner.gives 'a' then some "cannot convert associative to indexed array" else none
  | _ => none

end Manner

/-! ## Declaring -/

/-- An argument with the assignment that it may be. -/
def readArgument : Argument → Bytes × Option Argument
  | .word text =>
    let name := text.takeWhile isNameChar
    match Grammar.head? text with
    | some head =>
      (head.name, some (.scalar head.name head.subscript? head.append (text.drop head.length)))
    | none => (if text[name.length]? = some '[' then name else text, none)
  | .scalar name subscript? append text => (name, some (.scalar name subscript? append text))
  | .array name append elements => (name, some (.array name append elements))

/-- Declares what one argument says; false if it is refused. -/
def declareOne (e : Engine) (manner : Manner) (argument : Argument) : Act Bool := do
  let (given, assignment?) := readArgument argument
  if !isName given then
    Act.refuseName manner.builtin argument.text
    return false
  let refers := manner.gives 'n' || manner.takes 'n'
  let state ← get
  let name := if refers || manner.isLocal then given else state.resolve given
  let before := (state.binding? name).getD {}
  let fresh := manner.isLocal && !state.bindsHere name
  if before.readOnly && (fresh || assignment?.isSome || manner.takes 'r') then
    let start := if manner.builtin = "export" || manner.builtin = "readonly" then ""
      else s!"{manner.builtin}: "
    Act.complain s!"{start}{shown name}: readonly variable"
    return false
  let before : Binding := if fresh then {} else before
  if let some problem := manner.mismatch? before then
    Act.complainOf manner.builtin s!"{shown name}: {problem}"
    return false
  let binding := manner.attributed before
  let exports := state.has "allexport" && assignment?.isSome
  let binding := if exports then { binding with exported := true } else binding
  modify fun state => if fresh then state.bindHere name binding else state.bind name binding
  match assignment?, binding.reference with
  | some (.scalar _ _ _ text), true =>
    modify fun state => state.bind name { binding with value? := some (.scalar text) }
  | some assignment, _ => if !(← e.assignArgument assignment) then return false
  | none, _ => pure ()
  if manner.gives 'r' then
    modify fun state =>
      let binding := (state.binding? name).getD {}
      state.bind name { binding with readOnly := true }
  return true

def declareAll (e : Engine) (manner : Manner) (arguments : List Argument) : Act Unit := do
  let done ← arguments.foldlM (fun done argument =>
    return (← declareOne e manner argument) && done) true
  if done then Act.succeed else Act.fail

/-! ## Options -/

/-- The letters behind plus and minus signs, and the arguments behind them. -/
def readChanges (letters : String) : List Argument →
    Except Bytes (List (Bool × Char) × List Argument)
  | .word word :: rest =>
    match word with
    | ['-', '-'] => .ok ([], rest)
    | sign :: letter :: more =>
      if sign != '-' && sign != '+' then .ok ([], .word word :: rest)
      else match (letter :: more).find? fun c => !letters.toList.contains c with
        | some c => .error [sign, c]
        | none => do
          let (changes, rest) ← readChanges letters rest
          return ((letter :: more).map (fun c => (sign == '-', c)) ++ changes, rest)
    | _ => .ok ([], .word word :: rest)
  | arguments => .ok ([], arguments)

/-- Functions by their names; the flag says that their names are all that is printed. -/
def declareFunctions (builtin : String) (readOnly : Bool) (arguments : List Argument) :
    Act Unit := do
  let state ← get
  let known (name : Bytes) : Bool := (state.functions.lookup name).isSome
  if arguments.isEmpty then
    for name in (state.functions.map (·.1)).mergeSort inOrder do
      discard (Act.write 1 ("declare -f ".toList ++ name ++ ['\n']))
    Act.succeed
  else
    for argument in arguments do
      if known argument.text then
        if builtin = "declare" && !readOnly then discard (Act.write 1 (argument.text ++ ['\n']))
      else if builtin != "declare" then
        Act.complainOf builtin s!"{shown argument.text}: not a function"
    if arguments.all fun argument => known argument.text then Act.succeed else Act.fail

/-- Prints the variables that are asked for, or all that have the attributes. -/
def printAsked (manner : Manner) (arguments : List Argument) : Act Unit := do
  let state ← get
  let letters := (manner.changes.filter (·.1)).map (·.2)
  let asked := letters.filter "aAilnrux".toList.contains
  if arguments.isEmpty then
    printDeclarations (namesWhere state fun binding =>
      asked.all fun letter => (Engine.attributes binding).contains letter)
    Act.succeed
  else
    for argument in arguments do
      if (state.binding? argument.text).isNone then
        Act.complainOf manner.builtin s!"{shown argument.text}: not found"
      else printDeclarations [argument.text]
    if arguments.all fun argument => (state.binding? argument.text).isSome then Act.succeed
    else Act.fail

def declareBuiltin (e : Engine) (builtin : String) (arguments : List Argument) : Act Unit := do
  match readChanges "aAfFgiIlnrtuxp" arguments with
  | .error word =>
    Act.complainOf builtin s!"{shown word}: invalid option"
    Act.finish 2
  | .ok (changes, operands) =>
    let state ← get
    let inFunction := !state.callers.isEmpty
    let isGlobal := changes.contains (true, 'g')
    let manner : Manner :=
      { builtin, changes, isLocal := builtin = "local" || (inFunction && !isGlobal) }
    if builtin = "local" && !inFunction then
      Act.complainOf builtin "can only be used in a function"
      Act.fail
    else if manner.gives 'f' || manner.gives 'F' then
      declareFunctions "declare" (manner.gives 'r') operands
    else if manner.gives 'p' || (operands.isEmpty && builtin != "local") then
      printAsked manner operands
    else
      let (marks, others) := operands.partition fun argument =>
        builtin = "local" && argument.text = ['-']
      if !marks.isEmpty then
        modify fun state => { state with optionsBefore? := some state.options }
      declareAll e manner others

/-- `export` and `readonly`, which give one attribute. -/
def markBuiltin (e : Engine) (builtin : String) (letter : Char) (arguments : List Argument) :
    Act Unit := do
  match readChanges (if letter = 'x' then "fnp" else "aAfp") arguments with
  | .error word =>
    Act.complainOf builtin s!"{shown word}: invalid option"
    Act.finish 2
  | .ok (changes, operands) =>
    let takes := letter = 'x' && changes.contains (true, 'n')
    let kinds := changes.filter fun change => change.2 = 'a' || change.2 = 'A'
    let manner : Manner := { builtin, changes := (!takes, letter) :: kinds }
    if changes.contains (true, 'f') then declareFunctions builtin false operands
    else if operands.isEmpty then printAsked manner []
    else declareAll e manner operands

/-! ## Taking away -/

def unsetFunction (name : Bytes) : Act Unit :=
  modify fun state => { state with functions := state.functions.filter (·.1 != name) }

def unsetElement (e : Engine) (name subscript : Bytes) : Act Unit := do
  let name := (← get).resolve name
  let binding := ((← get).binding? name).getD {}
  let update (value : Value) : Act Unit :=
    modify fun state => state.bind name { binding with value? := some value }
  match binding.value? with
  | some (.keyed items) => update (.keyed (items.filter (·.1 != subscript)))
  | some (.indexed items) =>
    let key ← e.key binding.value? subscript
    let i := numberOf key
    update (.indexed (items.filter (·.1 != i)))
  | _ => return

/-- A local variable loses its value and stays local. -/
def unsetVariable (name : Bytes) : Act Unit :=
  modify fun state =>
    if !state.callers.isEmpty && state.bindsHere name then state.bindHere name {}
    else state.unbind name

/-- Takes one word away; false if that is refused. -/
def unsetOne (e : Engine) (options : Options) (word : Bytes) : Act Bool := do
  let (given, subscript?) := target word
  let state ← get
  if options.has 'f' then
    unsetFunction word
    return true
  if options.has 'v' && !isName given then
    Act.refuseName "unset" word
    return false
  let name := if options.has 'n' then given else state.resolve given
  match state.binding? name with
  | some binding =>
    if binding.readOnly then
      Act.complainOf "unset" s!"{shown name}: cannot unset: readonly variable"
      return false
    match subscript? with
    | some subscript =>
      if subscript = ['@'] || subscript = ['*'] then unsetVariable name
      else unsetElement e name subscript
    | none => unsetVariable name
    return true
  | none =>
    if !options.has 'v' then unsetFunction word
    return true

def unset (e : Engine) (words : List Bytes) : Act Unit :=
  Act.withOptions "unset" "fvn" "" words fun options => do
    let done ← options.operands.foldlM (fun done word =>
      return (← unsetOne e options word) && done) true
    if done then Act.succeed else Act.fail

/-! ## Calculating -/

/-- Calculates each argument. The last value decides, zero being a failure. -/
def calculateAll (e : Engine) (words : List Bytes) : Act Unit := do
  let words := if words.head? = some ['-', '-'] then words.drop 1 else words
  if words.isEmpty then
    Act.complainOf "let" "expression expected"
    Act.fail
  else
    let run : Act Unit := do
      let last ← words.foldlM (fun _ word => e.calculate "let: " word) (0 : Int)
      Act.finish (if last = 0 then 1 else 0)
    match ← Act.attempt run with
    | some .abandon => Act.fail
    | some jump => Act.jump jump
    | none => return

end Provision.Shell.Builtin
