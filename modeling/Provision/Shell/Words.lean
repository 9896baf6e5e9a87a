import Provision.Shell.Escape
import Provision.Shell.Scan

/-!
# Reading words

A word ends at a blank or an operator that no quote hides. What quotes, backslashes and dollar signs
mean depends on where a text stands; a `Mode` says so for each place. What may hold words in its
turn is read by a `Grammar`, which is put together where the commands are read.
-/

namespace Provision.Shell

/-- How a text is read. -/
structure Mode where
  /-- The first character behind the text. -/
  stops : Char → Bool
  /-- Single quotes quote. -/
  single : Bool := true
  /-- Double quotes quote. -/
  double : Bool := true
  /-- The characters that a backslash quotes; all if there is no list. -/
  escapes? : Option Bytes := none
  /-- Text and escapes are quoted already. -/
  inDouble : Bool := false
  /-- A dollar sign before a single quote begins a text with escapes. -/
  ansi : Bool := !inDouble

namespace Mode

def word : Mode := { stops := isMeta }

private def dollars : Bytes := ['$', backquote, '\\', '\n']

def doubled : Mode :=
  { stops := (· = '"'), single := false, double := false, escapes? := some ('"' :: dollars)
    inDouble := true }

/-- A here-document, in which double quotes are nothing special. -/
def document : Mode :=
  { stops := fun _ => false, single := false, double := false, escapes? := some dollars
    inDouble := true }

/-- An arithmetic expression. -/
def expression (stops : Char → Bool) : Mode :=
  { stops, single := false, escapes? := some ('"' :: dollars), inDouble := true }

/-- The word behind the operator of an expansion between braces. -/
def operand (inDouble : Bool) : Mode :=
  if inDouble then
    { stops := (· = '\x7d'), single := false, escapes? := some ('"' :: '\x7d' :: dollars)
      inDouble := true, ansi := true }
  else { stops := (· = '\x7d') }

/-- A pattern between braces. -/
def pattern (stops : Char → Bool) : Mode := { stops }

/-- A whole text. -/
def whole : Mode := { stops := fun _ => false }

end Mode

/-- What reads the texts that stand inside words. -/
structure Grammar where
  parts : Mode → Scan (List Part)
  /-- Commands up to a closing parenthesis, which is not passed. -/
  script : Scan (List Command)

namespace Grammar

variable (g : Grammar)

/-! ## Expansions -/

/-- The text inside an opened pair, which is passed with its closer. -/
def enclosed (opener closer : Char) : Scan Bytes := do
  let s ← Scan.rest
  match enclosed? opener closer s.length 0 s with
  | some (inner, _) =>
    Scan.skip (inner.length + 1)
    return inner
  | none => throw (.unclosed closer (← Scan.line))

/-- The text of an arithmetic expression up to `))`, if there is one. -/
def arithmeticText? : Scan (Option Bytes) := do
  let s ← Scan.rest
  match enclosed? '(' ')' s.length 0 s with
  | some (inner, ')' :: _) =>
    Scan.skip (inner.length + 2)
    return some inner
  | _ => return none

def expression (text : Bytes) : Scan (List Part) :=
  Scan.within text (g.parts (.expression fun _ => false))

/-- The subscript that may stand behind a name. -/
def subscript? : Scan (Option Subscript) := do
  if !(← Scan.accept "[") then return none
  let text ← enclosed '[' ']'
  if text = ['@'] then return some (.all false)
  else if text = ['*'] then return some (.all true)
  else return some (.one (← Scan.within text (g.parts .whole)))

/-- A parameter that has no name but a character. -/
def isSpecial (c : Char) : Bool := "@*#?-$!".toList.contains c

/-- Passes the name of such a parameter. In a document the arguments are joined by blanks, whatever
separates fields. -/
def specialName (c : Char) : Scan Bytes := do
  Scan.skip 1
  return if c = '*' && (← get).inDocument then ['@'] else [c]

/-- The name of a parameter, if one comes next. -/
def parameterName : Scan Bytes := do
  match ← Scan.peek with
  | none => return []
  | some c =>
    if isNameStart c then Scan.takeWhile isNameChar
    else if c.isDigit then Scan.takeWhile Char.isDigit
    else if isSpecial c then specialName c
    else return []

def fallback? (c : Char) : Option Fallback :=
  match c with
  | '-' => some .stand
  | '=' => some .assign
  | '?' => some .complain
  | '+' => some .replace
  | _ => none

private def slash (c : Char) : Bool := c = '/' || c = '\x7d'

private def colon (c : Char) : Bool := c = ':' || c = '\x7d'

/-- What is done to a parameter between braces; none if it is nothing that there is. -/
def operation? (inDouble : Bool) : Scan (Option Operation) := do
  let pattern := g.parts (.pattern (· = '\x7d'))
  match ← Scan.rest with
  | '\x7d' :: _ => return some .value
  | ':' :: c :: _ =>
    match fallback? c with
    | some kind =>
      Scan.skip 2
      return some (.fallback kind true (← g.parts (.operand inDouble)))
    | none =>
      if c = '\x7d' then return none
      Scan.skip 1
      let offset ← g.parts (.expression colon)
      if ← Scan.accept ":" then
        return some (.slice offset (some (← g.parts (.expression (· = '\x7d')))))
      else return some (.slice offset none)
  | '#' :: _ | '%' :: _ =>
    let atEnd := (← Scan.next) == some '%'
    let longest ← Scan.accept (if atEnd then "%" else "#")
    return some (.trim atEnd longest (← pattern))
  | '/' :: _ =>
    Scan.skip 1
    let place : Place ←
      if ← Scan.accept "/" then pure .all
      else if ← Scan.accept "#" then pure .start
      else if ← Scan.accept "%" then pure .finish
      else pure .first
    -- A slash at the start belongs to a pattern that may match anywhere.
    let anywhere := place = .first || place = .all
    let slashed ← if anywhere then Scan.accept "/" else pure false
    let first := if slashed then [Part.plain ['/']] else []
    let searched ← g.parts (.pattern slash)
    let replacement ← if ← Scan.accept "/" then pattern else pure []
    return some (.replace place (first ++ searched) replacement)
  | c :: rest =>
    match fallback? c with
    | some kind =>
      Scan.skip 1
      return some (.fallback kind false (← g.parts (.operand inDouble)))
    | none =>
      let kind? : Option Recase :=
        if c = '^' then some .upper else if c = ',' then some .lower
        else if c = '~' then some .flip else none
      match kind?, rest with
      | some kind, _ =>
        let all := rest.head? == some c
        Scan.skip (if all then 2 else 1)
        return some (.recase kind all (← pattern))
      | none, letter :: '\x7d' :: _ =>
        if c = '@' && letter.isAlpha then
          Scan.skip 2
          return some (.transform letter)
        else return none
      | none, _ => return none
  | [] => return none

/-- What stands between braces, up to the closing one. -/
def braced? (inDouble : Bool) : Scan (Option Part) := do
  let s ← Scan.rest
  let sizes := match s with
    | '#' :: c :: _ => isNameChar c || (isSpecial c && (s.drop 2).head? = some '\x7d')
    | _ => false
  if sizes then
    Scan.skip 1
    let name ← parameterName
    let subscript? ← g.subscript?
    if ← Scan.sees "\x7d" then return some (.parameter (.mk false name subscript?) .length)
    else return none
  let indirect := match s with
    | '!' :: c :: rest =>
      isNameChar c || ("#@*?".toList.contains c && rest.head? = some '\x7d')
    | _ => false
  if indirect then Scan.skip 1
  let name ← parameterName
  if name.isEmpty then return none
  let subscript? ← if isName name then g.subscript? else pure none
  let rest ← Scan.rest
  match indirect, subscript?, rest with
  | true, none, c :: '\x7d' :: _ =>
    if c = '@' || c = '*' then
      Scan.skip 1
      return some (.parameter (.mk false name none) (.names (c == '*')))
  | true, some (.all star), '\x7d' :: _ =>
    return some (.parameter (.mk false name none) (.keys star))
  | _, _, _ => pure ()
  match ← g.operation? inDouble with
  | some operation => return some (.parameter (.mk indirect name subscript?) operation)
  | none => return none

/-- An expansion between braces, of which the opening one has been passed. -/
def brace (inDouble : Bool) : Scan Part := do
  let start ← get
  match ← g.braced? inDouble with
  | some part =>
    if ← Scan.accept "\x7d" then return part
    else if ← Scan.ends then throw (.unclosed '\x7d' start.line)
  | none => pure ()
  set start
  let text ← enclosed '\x7b' '\x7d'
  return .unknown text

/-- A command substitution, of which the opening parenthesis has been passed. -/
def substitution : Scan (List Command) := do
  let inDocument := (← get).inDocument
  let read : Scan (List Command) := do
    modify fun input => { input with inDocument := false }
    let body ← g.script
    modify fun input => { input with inDocument }
    if ← Scan.accept ")" then return body
    else if ← Scan.ends then throw (.unclosed ')' ((← Scan.line) + 1))
    else Scan.unexpected
  tryCatch read fun flaw =>
    match flaw with
    | .unexpected token line => throw (.substituted token line)
    | other => throw other

/-- The script between back quotes, of which the first has been passed. -/
def backquotedText (inDouble : Bool) : Scan Bytes := do
  let line ← Scan.line
  let rec go : Nat → Bytes → Scan Bytes
    | 0, _ => throw (.unclosed backquote line)
    | limit + 1, read => do
      match ← Scan.next with
      | none => throw (.unclosed backquote line)
      | some c =>
        if c = backquote then return read.reverse
        else if c = '\\' then
          match ← Scan.next with
          | none => throw (.unclosed backquote line)
          | some d =>
            if d = '$' || d = backquote || d = '\\' || (inDouble && d = '"') then
              go limit (d :: read)
            else go limit (d :: '\\' :: read)
        else go limit (c :: read)
  go ((← Scan.rest).length + 1) []

/-- What a dollar sign begins. The sign has been passed. -/
def dollar (mode : Mode) : Scan Part := do
  let literal : Part := if mode.inDouble then .quoted ['$'] else .plain ['$']
  match ← Scan.rest with
  | '(' :: '(' :: _ =>
    let start ← get
    Scan.skip 2
    match ← arithmeticText? with
    | some text => return .arithmetic (← g.expression text)
    | none =>
      set start
      Scan.skip 1
      return .deferred (← enclosed '(' ')')
  | '(' :: _ =>
    Scan.skip 1
    return .substitution (← g.substitution)
  | '[' :: _ =>
    Scan.skip 1
    let text ← enclosed '[' ']'
    return .arithmetic (← g.expression text)
  | '\x7b' :: _ =>
    Scan.skip 1
    g.brace mode.inDouble
  | '"' :: _ =>
    if mode.inDouble then return literal
    else
      Scan.skip 1
      let parts ← g.parts .doubled
      Scan.skip 1
      return .double parts
  | c :: rest =>
    if isNameStart c then return .parameter (.mk false (← Scan.takeWhile isNameChar) none) .value
    else if c.isDigit then
      Scan.skip 1
      return .parameter (.mk false [c] none) .value
    else if isSpecial c then return .parameter (.mk false (← specialName c) none) .value
    else if c = apostrophe && mode.ansi then
      let rec length : Bytes → Nat
        | [] => 0
        | d :: more =>
          if d = apostrophe then 1
          else if d = '\\' then
            match more with
            | [] => 1
            | _ :: after => length after + 2
          else length more + 1
      let n := length rest
      if (rest.drop (n - 1)).head? != some apostrophe then
        throw (.unclosed apostrophe (← Scan.line))
      Scan.skip (n + 1)
      return .quoted (ansi (rest.take (n - 1)))
    else return literal
  | [] => return literal

/-! ## Texts -/

/-- What follows a backslash that has been passed; none if the line is joined to the next. -/
def escaped (mode : Mode) : Scan (Option Part) := do
  match ← Scan.peek with
  | none => return some (if mode.inDouble then .quoted ['\\'] else .plain ['\\'])
  | some c =>
    if c = '\n' then
      Scan.skip 1
      return none
    else
      let quotes := match mode.escapes? with
        | none => true
        | some escapes => escapes.contains c
      if quotes then
        Scan.skip 1
        return some (.quoted [c])
      else return some (.quoted ['\\'])

/-- One part of a text; none if nothing is left of what has been passed. -/
def part (mode : Mode) (c : Char) : Scan (Option Part) := do
  if c = '\\' then
    Scan.skip 1
    escaped mode
  else if c = '$' then
    Scan.skip 1
    return some (← g.dollar mode)
  else if c = backquote then
    Scan.skip 1
    return some (.deferred (← backquotedText mode.inDouble))
  else if c = apostrophe && mode.single then
    let line ← Scan.line
    Scan.skip 1
    let text ← Scan.takeWhile (· != apostrophe)
    if (← Scan.next).isNone then throw (.unclosed apostrophe line)
    return some (.quoted text)
  else if c = '"' && mode.double then
    let line ← Scan.line
    Scan.skip 1
    let parts ← g.parts .doubled
    if (← Scan.next).isNone then throw (.unclosed '"' line)
    return some (.double parts)
  else
    let plain (d : Char) : Bool :=
      !mode.stops d && d != '\\' && d != '$' && d != backquote && d != apostrophe && d != '"'
    let run := (← Scan.rest).takeWhile plain
    -- Quotes that do not quote here are characters like any other.
    let text := if run.isEmpty then [c] else run
    Scan.skip text.length
    return some (if mode.inDouble then .quoted text else .plain text)

/-- A group of alternatives, such as `@(a|b)`, of which the opening parenthesis comes next. -/
def alternatives : Scan (List Part) := do
  Scan.skip 1
  let inner ← g.parts { Mode.word with stops := (· = ')') }
  if (← Scan.next).isNone then throw (.unclosed ')' (← Scan.line))
  return .plain ['('] :: inner ++ [.plain [')']]

def opensGroup (c : Char) : Bool := "?*+@!".toList.contains c

/-- Reads a text in a mode, up to where it stops. -/
def readParts (mode : Mode) : Scan (List Part) := do
  let rec go : Nat → List Part → Scan (List Part)
    | 0, read => return read.reverse
    | limit + 1, read => do
      match ← Scan.peek with
      | none => return read.reverse
      | some c =>
        if mode.stops c then
          let endsGroup := match read with
            | .plain text :: _ => text.getLast?.any opensGroup
            | _ => false
          if c = '(' && endsGroup && (← get).groups then
            go limit ((← g.alternatives).reverse ++ read)
          else return read.reverse
        else
          match ← g.part mode c with
          | some part => go limit (part :: read)
          | none => go limit read
  go ((← Scan.rest).length + 1) []

/-- The next word, if one comes next. -/
def word? : Scan (Option (List Part)) := do
  if (← Scan.sees "<(") then
    Scan.skip 2
    return some [.process (← g.substitution)]
  let before ← Scan.rest
  let parts ← g.parts .word
  let after ← Scan.rest
  return if before.length = after.length then none else some parts

end Grammar

end Provision.Shell
