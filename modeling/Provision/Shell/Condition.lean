import Provision.Shell.Expansion
import Provision.Shell.Regex

/-!
# Conditions

What `test` and double brackets ask: about texts, about numbers and about files.
-/

namespace Provision.Shell

/-! ## Numbers -/

private def isSpace (c : Char) : Bool := c = ' ' || (9 ≤ c.toNat && c.toNat ≤ 13)

/-- A number of 64 bits with blanks around it. -/
def integer? (text : Bytes) : Option Int :=
  let body := text.dropWhile isSpace
  let body := (body.reverse.dropWhile isSpace).reverse
  (Brace.integer? body).filter fun n => Expression.wrap n == n

def comparison? (operator : Bytes) : Option (Int → Int → Bool) :=
  match String.ofList operator with
  | "-eq" => some fun a b => a == b
  | "-ne" => some fun a b => a != b
  | "-lt" => some fun a b => a < b
  | "-le" => some fun a b => a ≤ b
  | "-gt" => some fun a b => b < a
  | "-ge" => some fun a b => b ≤ a
  | _ => none

namespace State

/-! ## Files -/

/-- Files that are there on every host and are no files of this library. -/
def isDevice (path : Bytes) : Bool :=
  ["/dev/null", "/dev/zero", "/dev/tty", "/dev/stdin", "/dev/stdout", "/dev/stderr"].contains
    (String.ofList path)

def fileHolds (state : State) (operator : Char) (path : Bytes) : Bool :=
  let node? := (state.files.stat (pathOf path)).toOption
  let isThere := node?.isSome || isDevice path
  match operator with
  | 'a' | 'e' | 'r' | 'w' | 'O' | 'G' | 'N' => isThere
  | 'f' => (node? matches some (.file _))
  | 'd' | 'x' => (node? matches some .directory)
  | 's' =>
    match node? with
    | some (.file content) => content.size != 0
    | some .directory => true
    | none => false
  | 'c' => isDevice path
  | _ => false

/-- A variable, or an element of one, has a value. -/
def isSet (state : State) (text : Bytes) : Bool :=
  let name := text.takeWhile (· != '[')
  if name.length = text.length then
    match state.special? text with
    | some text? => text?.isSome
    | none => ((state.value? name).bind scalarOf).isSome
  else
    let key := (text.drop (name.length + 1)).dropLast
    match state.value? name with
    | some value =>
      if key = ['@'] || key = ['*'] then !(elementsOf value).isEmpty
      else (elementsOf value).any fun entry => entry.1 = key
    | none => false

def unaryHolds (state : State) (operator : Char) (operand : Bytes) : Bool :=
  match operator with
  | 'n' => !operand.isEmpty
  | 'z' => operand.isEmpty
  | 'v' => state.isSet operand
  | 'o' => state.has (String.ofList operand)
  | 'R' => (state.binding? operand).any (·.reference)
  | 't' => false
  | _ => state.fileHolds operator operand

/-- Comparisons of files. No file is older than another. -/
def filesHold? (state : State) (operator left right : Bytes) : Option Bool :=
  let here := state.fileHolds 'e'
  match String.ofList operator with
  | "-nt" => some (here left && !here right)
  | "-ot" => some (!here left && here right)
  | "-ef" =>
    let place (path : Bytes) : Option Location :=
      match state.files.locate (pathOf path) with
      | .ok (.directory l) | .ok (.entry l) => some l
      | .error _ => none
    some (here left && place left == place right)
  | _ => none

/-! ## The command `test` -/

def unary? (word : Bytes) : Option Char :=
  match word with
  | ['-', c] => if "abcdefghknoprstuvwxzGLNORS".toList.contains c then some c else none
  | _ => none

def isBinary (word : Bytes) : Bool :=
  ["=", "==", "!=", "<", ">", "-nt", "-ot", "-ef"].contains (String.ofList word) ||
    (comparison? word).isSome

def binaryHolds (state : State) (left operator right : Bytes) : Except String Bool :=
  match String.ofList operator with
  | "=" | "==" => .ok (left == right)
  | "!=" => .ok (left != right)
  | "<" => .ok (left < right)
  | ">" => .ok (right < left)
  | _ =>
    match comparison? operator with
    | none => .ok ((state.filesHold? operator left right).getD false)
    | some compare =>
      match integer? left, integer? right with
      | some a, some b => .ok (compare a b)
      | none, _ => .error s!"{shown left}: integer expression expected"
      | _, none => .error s!"{shown right}: integer expression expected"

private def negated (result : Except String Bool) : Except String Bool := result.map (!·)

def twoWords (state : State) (first second : Bytes) : Except String Bool :=
  if first = ['!'] then .ok second.isEmpty
  else match unary? first with
    | some operator => .ok (state.unaryHolds operator second)
    | none => .error s!"{shown first}: unary operator expected"

def threeWords (state : State) (first second third : Bytes) : Except String Bool :=
  if isBinary second then state.binaryHolds first second third
  else if second = ['-', 'a'] then .ok (!first.isEmpty && !third.isEmpty)
  else if second = ['-', 'o'] then .ok (!first.isEmpty || !third.isEmpty)
  else if first = ['!'] then negated (state.twoWords second third)
  else if first = ['('] && third = [')'] then .ok (!second.isEmpty)
  else .error s!"{shown second}: binary operator expected"

/-- Reads and decides an expression of any length, up to the word that ends it. -/
def longTest (state : State) : Nat → Nat → List Bytes → Except String (Bool × List Bytes)
  | 0, _, _ => .error "too many arguments"
  -- Rank 0 joins by `-o`, rank 1 by `-a`, rank 2 is a term.
  | limit + 1, 0, words => do
    let (left, rest) ← longTest state limit 1 words
    match rest with
    | ['-', 'o'] :: more => do
      let (right, rest) ← longTest state limit 0 more
      return (left || right, rest)
    | _ => return (left, rest)
  | limit + 1, 1, words => do
    let (left, rest) ← longTest state limit 2 words
    match rest with
    | ['-', 'a'] :: more => do
      let (right, rest) ← longTest state limit 1 more
      return (left && right, rest)
    | _ => return (left, rest)
  | limit + 1, _, words =>
    match words with
    | [] => .error "argument expected"
    | ['!'] :: rest => do
      let (holds, rest) ← longTest state limit 2 rest
      return (!holds, rest)
    | ['('] :: rest => do
      let (holds, rest) ← longTest state limit 0 rest
      match rest with
      | [')'] :: rest => return (holds, rest)
      | found :: _ => throw s!"closing parenthesis expected, found {shown found}"
      | [] => throw "closing parenthesis expected"
    | left :: rest =>
      match rest with
      | operator :: right :: after =>
        if isBinary operator then do return (← state.binaryHolds left operator right, after)
        else single left rest
      | _ => single left rest
where
  single (word : Bytes) (rest : List Bytes) : Except String (Bool × List Bytes) :=
    match unary? word, rest with
    | some operator, operand :: after => .ok (state.unaryHolds operator operand, after)
    | _, _ => .ok (!word.isEmpty, rest)

/-- What the command `test` answers. Up to four words are read by their number. -/
def testHolds (state : State) (words : List Bytes) : Except String Bool :=
  let long : Except String Bool := do
    let (holds, rest) ← state.longTest (4 * words.length + 4) 0 words
    if rest.isEmpty then return holds else throw "too many arguments"
  match words with
  | [] => .ok false
  | [word] => .ok (!word.isEmpty)
  | [first, second] => state.twoWords first second
  | [first, second, third] => state.threeWords first second third
  | [first, second, third, fourth] =>
    if first = ['!'] then negated (state.threeWords second third fourth)
    else if first = ['('] && fourth = [')'] then state.twoWords second third
    else long
  | _ => long

end State

/-! ## Double brackets -/

namespace Engine

variable (e : Engine)

def statusOf (holds : Bool) : Nat := if holds then 0 else 1

/-- Finds a regular expression in a text and keeps what its groups have found. -/
def regexStatus (text : Bytes) (marked : List Marked) : Act Nat := do
  match Regex.ofMarked? marked with
  | none => return 2
  | some regex =>
    let fold := (← get).hasExtra "nocasematch"
    let found := (Regex.find? fold (Regex.groupCount marked) regex text).getD []
    let value := Value.indexed ((List.range found.length).zip found)
    modify fun state => state.bind "BASH_REMATCH".toList { value? := some value }
    return statusOf (!found.isEmpty)

/-- Compares two numbers; there is no answer but no if one of them is none. -/
def compared (compare : Int → Int → Bool) (left right : Bytes) : Act Bool := do
  match ← e.calculated? "[[: " left with
  | none => return false
  | some a => return (← e.calculated? "[[: " right).any (compare a)

def binaryStatus (operator : Bytes) (left right : List Part) : Act Nat := do
  let a ← e.text left
  match String.ofList operator with
  | "=~" => regexStatus a (← e.marked right)
  | "=" | "==" => return statusOf (← isMatch right a)
  | "!=" => return statusOf !(← isMatch right a)
  | "<" => return statusOf (a < (← e.text right))
  | ">" => return statusOf ((← e.text right) < a)
  | _ =>
    let b ← e.text right
    match comparison? operator with
    | some compare => return statusOf (← e.compared compare a b)
    | none => return statusOf (((← get).filesHold? operator a b).getD false)
where
  /-- Groups of alternatives need no option here. -/
  isMatch (right : List Part) (text : Bytes) : Act Bool := do
    let pattern := Pattern.ofMarked true (← e.marked right)
    return Pattern.isMatch ((← get).hasExtra "nocasematch") pattern text

/-- Zero if a condition holds, one if not, two if it has no answer. -/
def conditionStatus : Condition → Act Nat
  | .word parts => return statusOf !(← e.text parts).isEmpty
  | .unary operator operand => do
    let operand ← e.text operand
    return statusOf ((← get).unaryHolds (operator.getD 1 ' ') operand)
  | .binary operator left right => e.binaryStatus operator left right
  | .negate condition => return if (← conditionStatus condition) = 0 then 1 else 0
  | .both left right => do
    let status ← conditionStatus left
    if status = 0 then conditionStatus right else return status
  | .either left right => do
    if (← conditionStatus left) = 0 then return 0 else conditionStatus right

end Engine

end Provision.Shell
