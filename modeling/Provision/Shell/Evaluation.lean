import Provision.Shell.Engine

/-!
# The value of an expression

Names in an arithmetic expression stand for variables whose values are expressions themselves.
-/

namespace Provision.Shell.Engine

open Expression (Fault ofBool)

variable (e : Engine)

/-- The text that a name in an expression stands for. -/
def referenceText (reference : Reference) : Act Bytes := do
  let value? := (← get).value? reference.name
  let text? ← match reference.subscript? with
    | none => pure (value?.bind State.scalarOf)
    | some subscript => do
      let key ← e.key value? subscript
      pure (value?.bind (elementOf? · key))
  match text? with
  | some text => return text
  | none => if (← get).has "nounset" then unbound reference.name else return []

def referenceValue (reference : Reference) : Act Int := do
  e.calculate "" (← e.referenceText reference)

/-- Assigns a number; a variable that may not be changed ends the expression. -/
def store (reference : Reference) (n : Int) : Act Unit := do
  if !(← e.assign reference.name reference.subscript? false (Expression.text n)) then
    Act.surrender

/-- What an operator makes of two numbers. -/
def combined (refuse : Fault → Act Int) (operator : String) (a b : Int) : Act Int :=
  match Expression.applyBinary? operator a b with
  | .ok n => return n
  | .error problem => refuse ⟨problem, Expression.text b⟩

def evaluate (refuse : Fault → Act Int) : Expression → Act Int
  | .number n => return n
  | .value reference => e.referenceValue reference
  | .unary operator operand => return Expression.applyUnary operator (← evaluate refuse operand)
  | .binary operator left right => do
    let a ← evaluate refuse left
    -- The right side of these is looked at only if it matters.
    if operator = "&&" && a = 0 then return 0
    if operator = "||" && a != 0 then return 1
    let b ← evaluate refuse right
    if operator = "&&" || operator = "||" then return ofBool (b != 0)
    combined refuse operator a b
  | .step before delta reference => do
    let old ← e.referenceValue reference
    let new := Expression.wrap (old + delta)
    e.store reference new
    return if before then new else old
  | .assign operator reference value => do
    let n ← if operator.isEmpty then evaluate refuse value
      else do
        let old ← e.referenceValue reference
        combined refuse operator old (← evaluate refuse value)
    e.store reference n
    return n
  | .choose condition yes no => do
    if (← evaluate refuse condition) != 0 then evaluate refuse yes else evaluate refuse no
  | .sequence first second => do
    let _ ← evaluate refuse first
    evaluate refuse second

/-- The value of a text. What is wrong with it ends the line. -/
def valueOf (context : String) (text : Bytes) : Act Int := do
  let refuse (fault : Fault) : Act Int := do
    let whole := shown (text.dropWhile isBlank)
    let token := shown fault.token
    Act.abandonLine s!"{context}{whole}: {fault.problem} (error token is \"{token}\")"
  match Expression.read text with
  | .ok expression => e.evaluate refuse expression
  | .error fault => refuse fault

end Provision.Shell.Engine
