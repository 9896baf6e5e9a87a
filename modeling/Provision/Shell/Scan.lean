import Provision.Shell.Syntax

/-!
# Scanning a script

The text that is still to be read, and the small steps in which it is read. The body of a
here-document is taken out of the text as soon as the document is announced, so that what follows
the announcement is read as if the body were not there.
-/

namespace Provision.Shell

/-- Why a text is no script. -/
inductive Flaw where
  /-- A token stands where it may not; `newline` and the end of the text have names of their own. -/
  | unexpected (token : Bytes) (line : Nat)
  /-- The text ends before a command does. -/
  | unfinished (line : Nat)
  /-- Something that was opened is never closed. -/
  | unclosed (closer : Char) (line : Nat)
  /-- The same in a command substitution. -/
  | substituted (token : Bytes) (line : Nat)
  /-- The elements of an array are not written as words; what follows the line can be read. -/
  | element (token : Bytes) (line : Nat) (after : Bytes)
  /-- The elements of an array never end. -/
  | openArray (line : Nat)

structure Input where
  rest : Bytes
  line : Nat := 1
  /-- Lines that have been taken out behind the current one. -/
  hidden : Nat := 0
  /-- Groups of alternatives may stand in words. -/
  groups : Bool := false
  /-- The text is a document that is supplied as input. -/
  inDocument : Bool := false
  /-- The texts that the names of commands stand for. -/
  aliases : List (Bytes × Bytes) := []

abbrev Scan := StateT Input (Except Flaw)

namespace Scan

def rest : Scan Bytes := return (← get).rest

def line : Scan Nat := return (← get).line

/-- The next character. -/
def peek : Scan (Option Char) := return (← get).rest.head?

def ends : Scan Bool := return (← get).rest.isEmpty

/-- Passes the next characters and counts the lines that they end. -/
def skip (n : Nat) : Scan Unit :=
  modify fun input =>
    let passed := (input.rest.take n).count '\n'
    { input with
      rest := input.rest.drop n
      line := if passed = 0 then input.line else input.line + passed + input.hidden
      hidden := if passed = 0 then input.hidden else 0 }

def next : Scan (Option Char) := do
  let c ← peek
  skip 1
  return c

def sees (text : String) : Scan Bool := return text.toList.isPrefixOf (← rest)

/-- Passes a text if it comes next. -/
def accept (text : String) : Scan Bool := do
  if ← sees text then
    skip text.length
    return true
  else return false

/-- Passes the longest run of characters that satisfy `p`. -/
def takeWhile (p : Char → Bool) : Scan Bytes := do
  let run := (← rest).takeWhile p
  skip run.length
  return run

/-- Reads another text from its start. -/
def within {α : Type} (text : Bytes) (scan : Scan α) : Scan α := do
  let outer ← get
  set { outer with rest := text }
  let result ← scan
  set outer
  return result

/-- More steps than it takes to read the rest, with an alias anywhere in it. -/
def budget : Scan Nat := do
  let input ← get
  return input.rest.length + 1 + (input.aliases.flatMap (·.2)).length

/-- Repeats a step until it says that it was the last. -/
def loop (step : Scan Bool) : Scan Unit := do
  let rec go : Nat → Scan Unit
    | 0 => return
    | n + 1 => do if ← step then go n
  go (← budget)

/-- Repeats a step as long as it reads something. -/
def collect {α : Type} (step : Scan (Option α)) : Scan (List α) := do
  let rec go : Nat → List α → Scan (List α)
    | 0, read => return read.reverse
    | n + 1, read => do
      match ← step with
      | some a => go n (a :: read)
      | none => return read.reverse
  go (← budget) []

/-- Passes blanks, joined lines and a comment. -/
def blanks : Scan Unit :=
  loop do
    match ← rest with
    | '\\' :: '\n' :: _ => skip 2; return true
    | '#' :: _ => discard (takeWhile (· != '\n')); return true
    | c :: _ => if isBlank c then skip 1; return true else return false
    | [] => return false

/-- Passes blanks and line ends. -/
def space : Scan Unit :=
  loop do
    blanks
    if (← peek) = some '\n' then skip 1; return true else return false

/-! ## What comes next -/

/-- The operators, longer ones before those that they begin with. -/
def operators : List String :=
  ["<<<", "<<-", ";;&", "&>>", "&&", "||", ";;", ";&", "|&", "<<", ">>", "<&", ">&", "<>", ">|",
    "&>", "&", "|", ";", "<", ">", "(", ")"]

/-- The token that a message names. -/
def token : Scan Bytes := do
  let s ← rest
  match s with
  | [] => return []
  | '\n' :: _ => return "newline".toList
  | _ =>
    match operators.find? fun operator => operator.toList.isPrefixOf s with
    | some operator => return operator.toList
    | none => return s.takeWhile (!isMeta ·)

def unexpected {α : Type} : Scan α := do
  let found ← token
  let here ← line
  if found.isEmpty then throw (.unfinished here) else throw (.unexpected found here)

/-- The word without quotes and expansions with which a text begins. -/
def bareOf (s : Bytes) : Bytes :=
  let word := s.takeWhile (!isMeta ·)
  let special := ['\\', '$', '"', apostrophe, backquote]
  if word.any special.contains then [] else word

/-- A word without quotes and expansions that comes next and is not passed. -/
def bare : Scan Bytes := return bareOf (← rest)

/-! ## Aliases -/

/-- A text with its first word replaced by what it stands for. An alias inside its own text is not
replaced again, and one that ends in a blank reaches to the next word. -/
def unaliased (aliases : List (Bytes × Bytes)) : Nat → List Bytes → Bytes → Bytes
  | 0, _, s => s
  | limit + 1, used, s =>
    let start := s.takeWhile isBlank
    let rest := s.drop start.length
    let word := bareOf rest
    match aliases.lookup word with
    | some text =>
      if used.contains word then s
      else
        let after := rest.drop word.length
        let after := if text.getLast?.any isBlank then unaliased aliases limit [] after else after
        start ++ unaliased aliases limit (word :: used) (text ++ after)
    | none => s

/-- Replaces an alias that comes next. -/
def unalias : Scan Unit :=
  modify fun input =>
    { input with rest := unaliased input.aliases (input.aliases.length + 1) [] input.rest }

end Scan

/-! ## Texts inside texts -/

/-- How many characters of a text belong to what a quote has opened, its end included. -/
def quotedLength (quote : Char) : Bytes → Nat
  | [] => 0
  | c :: rest =>
    if c = quote then 1
    else if c = '\\' && quote = '"' then
      match rest with
      | [] => 1
      | _ :: more => quotedLength quote more + 2
    else quotedLength quote rest + 1

/-- The text up to the closer of what has been opened, and what follows the closer. -/
def enclosed? (opener closer : Char) (limit depth : Nat) (s : Bytes) : Option (Bytes × Bytes) :=
  match limit, s with
  | 0, _ => none
  | _, [] => none
  | limit + 1, c :: rest =>
    let keep (n : Nat) (depth : Nat) : Option (Bytes × Bytes) :=
      (enclosed? opener closer limit depth (rest.drop n)).map fun (inner, after) =>
        (c :: rest.take n ++ inner, after)
    if c = '\\' then keep 1 depth
    else if c = '"' || c = apostrophe then keep (quotedLength c rest) depth
    else if c = closer then
      match depth with
      | 0 => some ([], rest)
      | depth + 1 => keep 0 depth
    else if c = opener then keep 0 (depth + 1)
    else keep 0 depth

end Provision.Shell
