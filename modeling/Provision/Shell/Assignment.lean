import Provision.Shell.Expansion

/-!
# Assignments

What assignments assign, as commands of their own, in front of a command, or among the arguments of
a declaration.
-/

namespace Provision.Shell

/-- The elements of an array, each with the subscript that it may have. -/
abbrev Elements := List (Option Bytes × Bool × Bytes)

/-- An argument of a builtin that declares variables. -/
inductive Argument where
  | word (text : Bytes)
  | scalar (name : Bytes) (subscript? : Option Bytes) (append : Bool) (text : Bytes)
  | array (name : Bytes) (append : Bool) (elements : Elements)

/-- An assignment as a word. -/
def Argument.text : Argument → Bytes
  | word text => text
  | scalar name subscript? append text =>
    name ++ (subscript?.elim [] fun subscript => '[' :: subscript ++ [']']) ++
      (if append then ['+', '='] else ['=']) ++ text
  | array name append _ => name ++ if append then ['+', '='] else ['=']

namespace Engine

variable (e : Engine)

/-- A word in a trace. -/
def traced (word : Bytes) : Bytes :=
  let plain (c : Char) : Bool := isNameChar c || "%+,-./:=@".toList.contains c
  if word.isEmpty then singleQuote []
  else if word.all plain then word
  else if word.any fun c => !isPrintable c then ansiQuote word
  else singleQuote word

def elementTexts (elements : List Element) : Act Elements := do
  let found ← elements.mapM fun (.mk subscript? append value) => do
    match subscript? with
    | some subscript => return [(some (← e.text subscript), append, ← e.assignedText value)]
    | none => return (← e.words value).map fun text => (none, false, text)
  return found.flatten

/-- An element of an array cannot be a list. -/
def refuseElement (name : Bytes) : Act Unit := do
  if !isName name then Act.abandon s!"{shown name}: cannot assign list to array member"

/-- An assignment, expanded. -/
def argumentOf : Assignment → Act Argument
  | .scalar name subscript? append value => do
    let subscript? ← subscript?.mapM e.text
    return .scalar name subscript? append (← e.assignedText value)
  | .array name append elements => do
    let texts ← e.elementTexts elements
    refuseElement name
    return .array name append texts

/-- Assigns; false if that is not allowed. -/
def assignArgument : Argument → Act Bool
  | .word _ => return true
  | .scalar name subscript? append text => e.assign name subscript? append text
  | .array name append elements => e.assignArray name append elements

/-- Performs assignments that are a command of their own. One that is refused ends the line. -/
def assignAll (assignments : List Assignment) : Act Unit :=
  assignments.forM fun assignment => do
    if let .array name _ _ := assignment then refuseElement name
    let argument ← e.argumentOf assignment
    let state ← get
    if state.has "xtrace" then
      let start := (state.textOf? "PS4").getD "+ ".toList
      let shownText := match argument with
        | .scalar name subscript? append text =>
          (Argument.scalar name subscript? append []).text ++ traced text
        | other => other.text
      discard (Act.write 2 (start ++ shownText ++ ['\n']))
    if !(← e.assignArgument argument) then Act.surrender

/-- A command takes variables, not elements of arrays. -/
def refusePlace (place : String) : Act Unit :=
  Act.complain s!"{backquote}{place}{apostrophe}: not a valid identifier"

/-- Assigns in a new scope, for one command. What is refused is left out, or ends the shell if
failures do. -/
def assignHere (assignments : List Assignment) : Act Unit := do
  modify fun state => { state with scopes := [] :: state.scopes }
  assignments.forM fun assignment => do
    match assignment with
    | .scalar name none append value =>
      let text ← e.assignedText value
      if ← mayChange name then
        let before := (((← get).value? name).bind State.scalarOf).getD []
        let old := if append then before else []
        let binding : Binding := { value? := some (.scalar (old ++ text)), exported := true }
        modify fun state => state.bindHere name binding
      else if (← get).has "errexit" then Act.surrender
    | .scalar name (some subscript) _ _ =>
      refusePlace s!"{shown name}[{shown (← e.text subscript)}]"
    | .array name _ elements =>
      if isName name then discard (e.elementTexts elements) else refusePlace (shown name)

/-- The arguments that an item of a command stands for. -/
def arguments : Item → Act (List Argument)
  | .word parts => return (← e.words parts).map Argument.word
  | .assignment assignment => return [← e.argumentOf assignment]

end Engine

end Provision.Shell
