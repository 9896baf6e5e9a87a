/-!
# The shell language

Scripts as trees: words made of parts, and commands made of words. A text is a list of characters
each of which stands for one byte, because a shell neither knows nor asks what its bytes spell.
-/

namespace Provision.Shell

/-- A text of bytes. -/
abbrev Bytes := List Char

/-- How a `case` clause goes on after its body. -/
inductive Leaving where
  | leave
  /-- Into the body of the next clause. -/
  | fallThrough
  /-- To the patterns of the next clause. -/
  | tryNext
deriving DecidableEq

/-- What a default value is for. -/
inductive Fallback where
  /-- To stand in. -/
  | stand
  /-- To stand in and to be assigned. -/
  | assign
  /-- To be the message of a fault. -/
  | complain
  /-- To stand for a value that is there. -/
  | replace
deriving DecidableEq

/-- Where a pattern is replaced in a value. -/
inductive Place where
  | first
  | all
  | start
  | finish
deriving DecidableEq

/-- How the letters of a value change. -/
inductive Recase where
  | upper
  | lower
  | flip
deriving DecidableEq

/-- How a file is opened. -/
inductive Opening where
  | read
  | overwrite
  /-- Also a file that `noclobber` protects. -/
  | clobber
  | append
  | readWrite
deriving DecidableEq

mutual

/-- A piece of a word. -/
inductive Part where
  | plain (text : Bytes)
  | quoted (text : Bytes)
  | double (parts : List Part)
  | parameter (subject : Subject) (operation : Operation)
  /-- Something between braces that is no expansion. -/
  | unknown (text : Bytes)
  | substitution (body : List Command)
  /-- A substitution that is read when it is run: one between back quotes, or one that begins as an
  expression does. -/
  | deferred (text : Bytes)
  | arithmetic (expression : List Part)
  /-- The output of a script as a file. -/
  | process (body : List Command)

/-- The parameter that an expansion is about. `indirect` takes its value for the name. -/
inductive Subject where
  | mk (indirect : Bool) (name : Bytes) (subscript? : Option Subscript)

inductive Subscript where
  /-- All elements, `star` those that may be joined. -/
  | all (star : Bool)
  | one (index : List Part)

inductive Operation where
  | value
  | length
  /-- The names of the variables that begin so. -/
  | names (star : Bool)
  /-- The subscripts of an array. -/
  | keys (star : Bool)
  | fallback (kind : Fallback) (orEmpty : Bool) (word : List Part)
  | trim (atEnd longest : Bool) (pattern : List Part)
  | replace (place : Place) (pattern replacement : List Part)
  | slice (offset : List Part) (length? : Option (List Part))
  | recase (kind : Recase) (all : Bool) (pattern : List Part)
  | transform (letter : Char)

inductive Assignment where
  | scalar (name : Bytes) (subscript? : Option (List Part)) (append : Bool) (value : List Part)
  /-- A list of elements. A name with a subscript is kept as it is written: it is refused. -/
  | array (name : Bytes) (append : Bool) (elements : List Element)

inductive Element where
  | mk (subscript? : Option (List Part)) (append : Bool) (value : List Part)

/-- A word of a command, or an assignment among the arguments of a declaration. -/
inductive Item where
  | word (parts : List Part)
  | assignment (assignment : Assignment)

/-- The descriptor that is redirected: a number, or a variable that is to hold one. -/
inductive Descriptor where
  | number (n : Nat)
  | stored (name : Bytes)

inductive Redirect where
  | file (target : Descriptor) (opening : Opening) (path : List Part)
  /-- Output and errors into one file. -/
  | both (append : Bool) (path : List Part)
  /-- `orBoth`: a word that is no descriptor is the path of a file for output and errors. -/
  | duplicate (target : Descriptor) (orBoth : Bool) (source : List Part)
  | document (target : Descriptor) (content : List Part)
  /-- A word, with a line end, is the input. -/
  | text (target : Descriptor) (word : List Part)

/-- A condition between double brackets. -/
inductive Condition where
  | word (parts : List Part)
  | unary (operator : Bytes) (operand : List Part)
  | binary (operator : Bytes) (left right : List Part)
  | negate (condition : Condition)
  | both (left right : Condition)
  | either (left right : Condition)

inductive Command where
  | simple (line : Nat) (assignments : List Assignment) (items : List Item)
      (redirects : List Redirect)
  | compound (line : Nat) (body : Compound) (redirects : List Redirect)
  | pipeline (negated : Bool) (commands : List Command)
  | both (first second : Command)
  | either (first second : Command)
  | background (command : Command)

inductive Compound where
  | group (body : List Command)
  | subshell (body : List Command)
  | branch (clauses : List Branch) (otherwise : List Command)
  | loop (negated : Bool) (condition body : List Command)
  | each (name : Bytes) (words? : Option (List (List Part))) (body : List Command)
  /-- Runs the body for each word that is chosen from a menu. -/
  | menu (name : Bytes) (words? : Option (List (List Part))) (body : List Command)
  | count (start condition step : List Part) (body : List Command)
  | choose (subject : List Part) (clauses : List Clause)
  | condition (condition : Condition)
  | calculate (expression : List Part)
  | define (name : Bytes) (body : Command)

inductive Branch where
  | mk (condition body : List Command)

inductive Clause where
  | mk (patterns : List (List Part)) (body : List Command) (leaving : Leaving)

end

instance : Inhabited Command := ⟨.pipeline false []⟩

/-! ## Characters -/

def apostrophe : Char := Char.ofNat 0x27

def backquote : Char := Char.ofNat 0x60

def isBlank (c : Char) : Bool := c = ' ' || c = '\t'

/-- The characters that end a word. -/
def isMeta (c : Char) : Bool := " \t\n;&|<>()".toList.contains c

def isNameStart (c : Char) : Bool := c.isAlpha || c = '_'

def isNameChar (c : Char) : Bool := c.isAlphanum || c = '_'

def isName (text : Bytes) : Bool := text.head?.any isNameStart && text.all isNameChar

/-! ## Numbers -/

/-- The digits of a number in base ten. -/
def decimalOf (n : Nat) : Bytes := Nat.toDigits 10 n

/-- How many integers have 64 bits. -/
def wordSize : Nat := 0x10000000000000000

/-- The first text does not come after the second one in the order of their bytes. -/
def inOrder : Bytes → Bytes → Bool
  | [], _ => true
  | _ :: _, [] => false
  | c :: s, d :: t => c.toNat < d.toNat || (c = d && inOrder s t)

/-- The number that digits in base ten stand for. -/
def numberOf (digits : Bytes) : Nat := digits.foldl (fun n c => n * 10 + (c.toNat - 0x30)) 0

end Provision.Shell
