import Provision.Decimal
import Provision.Text.Escape

/-!
# JSON values

A value, how a message names it, and how it is printed over several lines.
-/

namespace Provision

inductive Json where
  | null
  | boolean (value : Bool)
  | integer (value : Int)
  | float (value : Float)
  | string (value : String)
  | list (items : List Json)
  | object (fields : List (String × Json))
deriving Inhabited

namespace Json

/-- The value as a message names it that expected something else. -/
def describe : Json → String
  | null => "null"
  | boolean value => s!"boolean `{value}`"
  | integer value => s!"integer `{value}`"
  | float value => s!"floating point `{Decimal.messageStyle.format value}`"
  | string value => s!"string {Text.quoted value}"
  | list _ => "sequence"
  | object _ => "map"

def mismatch (found : Json) (expected : String) : String :=
  s!"invalid type: {found.describe}, expected {expected}"

/-! ## Printing -/

/-- A character inside a JSON string. -/
def escape (c : Char) : List Char :=
  if c = '"' then ['\\', '"']
  else if c = '\\' then ['\\', '\\']
  else if c.toNat = 0x08 then ['\\', 'b']
  else if c = '\t' then ['\\', 't']
  else if c = '\n' then ['\\', 'n']
  else if c.toNat = 0x0C then ['\\', 'f']
  else if c = '\r' then ['\\', 'r']
  else if c.toNat < 0x20 then "\\u".toList ++ (Text.hexDigits c.toNat).leftpad 4 '0'
  else [c]

def quote (s : String) : String := String.ofList ('"' :: s.toList.flatMap escape ++ ['"'])

private def indent (depth : Nat) : String := String.ofList ('\n' :: List.replicate (2 * depth) ' ')

private def enclose (left right : String) (depth : Nat) (items : List String) : String :=
  if items.isEmpty then left ++ right
  else left ++ ",".intercalate (items.map (indent (depth + 1) ++ ·)) ++ indent depth ++ right

mutual

/-- Prints one item per line, two blanks deeper at each level. -/
def pretty (depth : Nat) : Json → String
  | null => "null"
  | boolean value => toString value
  | integer value => toString value
  | float value => Decimal.messageStyle.format value
  | string value => quote value
  | list items => enclose "[" "]" depth (prettyItems (depth + 1) items)
  | object fields => enclose "\x7b" "\x7d" depth (prettyFields (depth + 1) fields)

def prettyItems (depth : Nat) : List Json → List String
  | [] => []
  | item :: rest => pretty depth item :: prettyItems depth rest

def prettyFields (depth : Nat) : List (String × Json) → List String
  | [] => []
  | (key, value) :: rest => (quote key ++ ": " ++ pretty depth value) :: prettyFields depth rest

end

/-! ## Closed vocabularies -/

/-- The message about a label that is none of the labels of a vocabulary. -/
def unknownLabel (label : String) (labels : List String) : String :=
  let marked := labels.map fun known => s!"`{known}`"
  let expected := match marked with
    | [first, second] => s!"{first} or {second}"
    | _ => "one of " ++ ", ".intercalate marked
  s!"unknown variant `{label}`, expected {expected}"

/--
Reads one of the choices by its label. A label may also stand as the only key of an object whose
value is null.
-/
def readChoice {α : Type} (choices : List α) (label : α → String) (value : Json) :
    Except String α :=
  let named (text : String) : Except String α :=
    match choices.find? fun choice => label choice == text with
    | some choice => .ok choice
    | none => .error (unknownLabel text (choices.map label))
  match value with
  | string text => named text
  | object [(text, payload)] => do
    let choice ← named text
    match payload with
    | null => return choice
    | other => throw (other.mismatch "unit")
  | object _ => .error "invalid value: map, expected map with a single key"
  | other => .error (other.mismatch "string or map")

end Json

end Provision
