import Provision.Shell.Escape

/-!
# Arithmetic expressions

Integers of 64 bits with the operators of C, written in the notation of C. This module reads an
expression and says what the operators do; what a name stands for is the shell's affair.
-/

namespace Provision.Shell

/-- A variable or an element of an array. -/
structure Reference where
  name : Bytes
  subscript? : Option Bytes := none
deriving DecidableEq

inductive Expression where
  | number (n : Int)
  | value (reference : Reference)
  | unary (operator : Char) (operand : Expression)
  | binary (operator : String) (left right : Expression)
  /-- `before` says that the value is taken after the step. -/
  | step (before : Bool) (delta : Int) (reference : Reference)
  /-- An operator other than the empty one is applied to the old value first. -/
  | assign (operator : String) (reference : Reference) (value : Expression)
  | choose (condition yes no : Expression)
  | sequence (first second : Expression)

namespace Expression

/-- What is wrong with an expression, and where. -/
structure Fault where
  problem : String
  token : Bytes

/-! ## Numbers -/

/-- The number of 64 bits that is the same up to multiples of their count. -/
def wrap (n : Int) : Int := Int.bmod n wordSize

def digitValue? (base : Nat) (c : Char) : Option Nat :=
  if c.isDigit then some (c.toNat - 0x30)
  else if c.isLower then some (c.toNat - 0x61 + 10)
  else if c.isUpper then some (if base ≤ 36 then c.toNat - 0x41 + 10 else c.toNat - 0x41 + 36)
  else if c = '@' then some 62
  else if c = '_' then some 63
  else none

private def inBase (base : Nat) (token digits : Bytes) : Except Fault Int :=
  digits.foldlM (fun (n : Int) c =>
    match digitValue? base c with
    | some d =>
      if d < base then .ok (wrap (n * base + d)) else .error ⟨"value too great for base", token⟩
    | none => .error ⟨"value too great for base", token⟩) 0

/-- A number: decimal, octal, hexadecimal, or behind its base. -/
def readNumber (token : Bytes) : Except Fault Int :=
  match token with
  | '0' :: 'x' :: digits => inBase 16 token digits
  | '0' :: 'X' :: digits => inBase 16 token digits
  | '0' :: c :: digits => inBase 8 token (c :: digits)
  | _ =>
    let base := token.takeWhile (· != '#')
    if base.length = token.length then inBase 10 token token
    else do
      let b ← inBase 10 token base
      if b < 2 || 64 < b then throw ⟨"invalid arithmetic base", token⟩
      let digits := token.drop (base.length + 1)
      if digits.isEmpty then throw ⟨"invalid integer constant", token⟩
      inBase b.toNat token digits

/-! ## Reading -/

abbrev Read := StateT Bytes (Except Fault)

private def spaces : Read Unit := modify fun s => s.dropWhile fun c => isBlank c || c = '\n'

private def fault {α : Type} (problem : String) : Read α := do
  throw ⟨problem, ← get⟩

private def accept (text : String) : Read Bool := do
  let s ← get
  if text.toList.isPrefixOf s then
    set (s.drop text.length)
    return true
  else return false

/-- A name with the subscript behind it, if a name comes next. -/
private def reference? : Read (Option Reference) := do
  let s ← get
  if !(s.head?.any isNameStart) then return none
  let name := s.takeWhile isNameChar
  let rest := s.drop name.length
  match rest with
  | '[' :: inner =>
    let rec close : Nat → Nat → Bytes → Option (Bytes × Bytes)
      | 0, _, _ => none
      | _, _, [] => none
      | limit + 1, depth, c :: more =>
        if c = ']' && depth = 0 then some ([], more)
        else
          let depth := if c = '[' then depth + 1 else if c = ']' then depth - 1 else depth
          (close limit depth more).map fun (text, after) => (c :: text, after)
    match close (inner.length + 1) 0 inner with
    | some (subscript, after) =>
      set after
      return some ⟨name, some subscript⟩
    | none => fault "bad array subscript"
  | _ =>
    set rest
    return some ⟨name, none⟩

/-- The operators between two operands with their ranks, longer ones first. -/
def operators : List (String × Nat) :=
  [("**", 11), ("||", 1), ("&&", 2), ("==", 6), ("!=", 6), ("<<", 8), (">>", 8), ("<=", 7),
    (">=", 7), ("<", 7), (">", 7), ("|", 3), ("^", 4), ("&", 5), ("+", 9), ("-", 9), ("*", 10),
    ("/", 10), ("%", 10)]

def assignments : List String :=
  ["<<=", ">>=", "+=", "-=", "*=", "/=", "%=", "&=", "^=", "|=", "="]

private def assignment? : Read (Option String) := do
  let s ← get
  if "==".toList.isPrefixOf s then return none
  match assignments.find? fun operator => operator.toList.isPrefixOf s with
  | some operator =>
    set (s.drop operator.length)
    return some (operator.dropEnd 1).toString
  | none => return none

/-- The reader of one level, given that of the level below. -/
structure Levels where
  sequence : Read Expression
  assignment : Read Expression
  conditional : Read Expression
  binary : Nat → Read Expression
  unary : Read Expression

private def readPrimary (levels : Levels) : Read Expression := do
  spaces
  if ← accept "(" then
    let inner ← levels.sequence
    spaces
    if ← accept ")" then return inner else fault s!"missing {backquote}){apostrophe}"
  match ← reference? with
  | some reference =>
    let s ← get
    let after := s.dropWhile isBlank
    if "++".toList.isPrefixOf after then
      set (after.drop 2)
      return .step false 1 reference
    else if "--".toList.isPrefixOf after then
      set (after.drop 2)
      return .step false (-1) reference
    else return .value reference
  | none =>
    let s ← get
    let token := s.takeWhile fun c => isNameChar c || c = '#' || c = '@'
    if !(token.head?.any Char.isDigit) then
      fault "syntax error: operand expected"
    else
      set (s.drop token.length)
      return .number (← (readNumber token : Except Fault Int))

private def readUnary (levels : Levels) : Read Expression := do
  spaces
  let s ← get
  let stepped (delta : Int) : Read Expression := do
    set (s.drop 2)
    spaces
    match ← reference? with
    | some reference => return .step true delta reference
    | none =>
      -- Two signs in front of something that is no variable.
      set (s.drop 1)
      return .unary (s.headD '+') (← levels.unary)
  match s with
  | '+' :: '+' :: _ => stepped 1
  | '-' :: '-' :: _ => stepped (-1)
  | c :: rest =>
    if c = '+' || c = '-' || c = '!' || c = '~' then
      set rest
      return .unary c (← levels.unary)
    else readPrimary levels
  | [] => fault "syntax error: operand expected"

private def readBinary (levels : Levels) (least : Nat) : Read Expression := do
  let rec go : Nat → Expression → Read Expression
    | 0, left => return left
    | limit + 1, left => do
      spaces
      let s ← get
      match operators.find? fun (operator, _) => operator.toList.isPrefixOf s with
      | some (operator, rank) =>
        if rank < least then return left
        set (s.drop operator.length)
        let right ← levels.binary (if operator = "**" then rank else rank + 1)
        go limit (.binary operator left right)
      | none => return left
  let first ← levels.unary
  go ((← get).length + 1) first

private def readConditional (levels : Levels) : Read Expression := do
  let condition ← levels.binary 0
  spaces
  if ← accept "?" then
    let yes ← levels.sequence
    spaces
    if !(← accept ":") then fault "syntax error: colon expected for conditional expression"
    return .choose condition yes (← levels.conditional)
  else return condition

private def readAssignment (levels : Levels) : Read Expression := do
  spaces
  let start ← get
  match ← reference? with
  | some reference =>
    spaces
    match ← assignment? with
    | some operator => return .assign operator reference (← levels.assignment)
    | none =>
      set start
      levels.conditional
  | none => levels.conditional

private def readSequence (levels : Levels) : Read Expression := do
  let rec go : Nat → Expression → Read Expression
    | 0, left => return left
    | limit + 1, left => do
      spaces
      if ← accept "," then go limit (.sequence left (← levels.assignment)) else return left
  let first ← levels.assignment
  go ((← get).length + 1) first

private def levels : Nat → Levels
  | 0 =>
    { sequence := fault "expression recursion level exceeded"
      assignment := fault "expression recursion level exceeded"
      conditional := fault "expression recursion level exceeded"
      binary := fun _ => fault "expression recursion level exceeded"
      unary := fault "expression recursion level exceeded" }
  | depth + 1 =>
    { sequence := fun s => readSequence (levels depth) s
      assignment := fun s => readAssignment (levels depth) s
      conditional := fun s => readConditional (levels depth) s
      binary := fun least s => readBinary (levels depth) least s
      unary := fun s => readUnary (levels depth) s }

/-- Reads a whole text; one without anything in it is zero. -/
def read (text : Bytes) : Except Fault Expression := do
  if text.all fun c => isBlank c || c = '\n' then return .number 0
  let (expression, rest) ← ((levels (8 * text.length + 8)).sequence).run text
  let rest := rest.dropWhile fun c => isBlank c || c = '\n'
  if rest.isEmpty then return expression
  else if rest.head? = some '=' then throw ⟨"attempted assignment to non-variable", rest⟩
  else throw ⟨"syntax error in expression", rest⟩

/-! ## Operators -/

def ofBool (b : Bool) : Int := if b then 1 else 0

def applyUnary (operator : Char) (n : Int) : Int :=
  match operator with
  | '-' => wrap (-n)
  | '!' => ofBool (n == 0)
  | '~' => -n - 1
  | _ => n

private def bitwise (f : Nat → Nat → Nat) (a b : Int) : Int :=
  wrap (f (a % wordSize).toNat (b % wordSize).toNat : Nat)

/-- What an operator makes of two numbers; none for a division by zero. -/
def applyBinary? (operator : String) (a b : Int) : Except String Int :=
  let shifted : Int := Nat.pow 2 (b % 64).toNat
  match operator with
  | "+" => .ok (wrap (a + b))
  | "-" => .ok (wrap (a - b))
  | "*" => .ok (wrap (a * b))
  | "/" => if b = 0 then .error "division by 0" else .ok (wrap (a.tdiv b))
  | "%" => if b = 0 then .error "division by 0" else .ok (a.tmod b)
  | "**" => if b < 0 then .error "exponent less than 0" else .ok (power a b.toNat)
  | "<<" => .ok (wrap (a * shifted))
  | ">>" => .ok (a / shifted)
  | "<" => .ok (ofBool (a < b))
  | ">" => .ok (ofBool (b < a))
  | "<=" => .ok (ofBool (a ≤ b))
  | ">=" => .ok (ofBool (b ≤ a))
  | "==" => .ok (ofBool (a == b))
  | "!=" => .ok (ofBool (a != b))
  | "&" => .ok (bitwise (· &&& ·) a b)
  | "|" => .ok (bitwise (· ||| ·) a b)
  | "^" => .ok (bitwise (· ^^^ ·) a b)
  | _ => .ok b
where
  /-- Powers by repeated squaring, wrapped at each step. -/
  power (a : Int) (n : Nat) : Int :=
    (Nat.toDigits 2 n).foldl (fun result digit =>
      let squared := wrap (result * result)
      if digit = '1' then wrap (squared * a) else squared) 1

/-- A number as the shell writes it. -/
def text (n : Int) : Bytes := (toString n).toList

end Expression

end Provision.Shell
