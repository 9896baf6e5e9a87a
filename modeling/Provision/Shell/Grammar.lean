import Provision.Shell.Words

/-!
# Reading commands

Commands are read one line at a time, so that what stands before a fault has run when the fault is
found. A compound command reaches over as many lines as it needs.
-/

namespace Provision.Shell

namespace Grammar

variable (g : Grammar)

/-! ## Redirections -/

/-- A here-document: its text, what is left without it, and how many lines it took. -/
def cutDocument (stripTabs : Bool) (delimiter : Bytes) (s : Bytes) : Bytes × Bytes × Nat :=
  let rec go : Nat → Bytes → Bytes × Bytes × Nat
    | 0, s => ([], s, 0)
    | limit + 1, s =>
      if s.isEmpty then ([], [], 0)
      else
        let line := s.takeWhile (· != '\n')
        let after := s.drop (line.length + 1)
        let line := if stripTabs then line.dropWhile (· = '\t') else line
        if line = delimiter then ([], after, 1)
        else
          let (body, rest, lines) := go limit after
          (line ++ '\n' :: body, rest, lines + 1)
  go (s.length + 1) s

/-- How far the current line goes, quotes that reach over line ends included. -/
def lineLength (limit : Nat) (s : Bytes) : Nat :=
  match limit, s with
  | 0, _ => 0
  | _, [] => 0
  | limit + 1, c :: rest =>
    if c = '\n' then 0
    else if c = '\\' then lineLength limit (rest.drop 1) + 1 + min 1 rest.length
    else if c = '"' || c = apostrophe then
      let n := quotedLength c rest
      lineLength limit (rest.drop n) + n + 1
    else lineLength limit rest + 1

/-- The text of a delimiter without its quotes, and whether there were any. -/
def delimiterText (parts : List Part) : Bytes × Bool :=
  let texts := parts.map fun part =>
    match part with
    | .plain text => (text, false)
    | .quoted text => (text, true)
    | .double [.quoted text] => (text, true)
    | _ => ([], true)
  (texts.flatMap (·.1), texts.any (·.2))

/-- Reads a here-document, the operator of which has been passed. -/
def document (stripTabs : Bool) : Scan (List Part) := do
  Scan.blanks
  match ← g.word? with
  | none => Scan.unexpected
  | some parts =>
    let (delimiter, isQuoted) := delimiterText parts
    let input ← get
    let n := lineLength input.rest.length input.rest
    let behind := input.rest.drop (n + 1)
    let (body, rest, lines) := cutDocument stripTabs delimiter behind
    set { input with
      rest := input.rest.take n ++ (if input.rest.length ≤ n then [] else '\n' :: rest)
      hidden := input.hidden + lines }
    if isQuoted then return [.quoted body]
    else Scan.within body do
      modify fun input => { input with inDocument := true }
      g.parts .document

/-- The descriptor in front of a redirection, if a redirection comes next. -/
def descriptor? : Scan (Option (Option Descriptor)) := do
  let s ← Scan.rest
  let redirects (rest : Bytes) : Bool := rest.head? = some '<' || rest.head? = some '>'
  let digits := s.takeWhile Char.isDigit
  if redirects s || "&>".toList.isPrefixOf s then return some none
  else if !digits.isEmpty && redirects (s.drop digits.length) then
    Scan.skip digits.length
    return some (some (.number (numberOf digits)))
  else match s with
    | '\x7b' :: rest =>
      let name := rest.takeWhile isNameChar
      let after := rest.drop name.length
      if isName name && after.head? = some '\x7d' && redirects (after.drop 1) then
        Scan.skip (name.length + 2)
        return some (some (.stored name))
      else return none
    | _ => return none

/-- The word behind the operator of a redirection. -/
def target : Scan (List Part) := do
  Scan.blanks
  match ← g.word? with
  | some parts => return parts
  | none =>
    if ← Scan.ends then throw (.unexpected "newline".toList (← Scan.line)) else Scan.unexpected

/-- The next redirection, if one comes next. -/
def redirect? : Scan (Option Redirect) := do
  let before ← get
  let s := before.rest
  if "<(".toList.isPrefixOf s || ">(".toList.isPrefixOf s then return none
  match ← descriptor? with
  | none => return none
  | some given =>
    let input := given.getD (.number 0)
    let output := given.getD (.number 1)
    let file (descriptor : Descriptor) (opening : Opening) : Scan (Option Redirect) :=
      return some (.file descriptor opening (← g.target))
    if ← Scan.accept "&>>" then return some (.both true (← g.target))
    else if ← Scan.accept "&>" then return some (.both false (← g.target))
    else if ← Scan.accept "<<<" then return some (.text input (← g.target))
    else if ← Scan.accept "<<-" then return some (.document input (← g.document true))
    else if ← Scan.accept "<<" then return some (.document input (← g.document false))
    else if ← Scan.accept "<&" then return some (.duplicate input false (← g.target))
    else if ← Scan.accept "<>" then file input .readWrite
    else if ← Scan.accept "<" then file input .read
    else if ← Scan.accept ">>" then file output .append
    else if ← Scan.accept ">&" then return some (.duplicate output given.isNone (← g.target))
    else if ← Scan.accept ">|" then file output .clobber
    else if ← Scan.accept ">" then file output .overwrite
    else
      set before
      return none

/-- All redirections that come next. -/
def redirects : Scan (List Redirect) :=
  Scan.collect do
    Scan.blanks
    g.redirect?

/-! ## Assignments -/

structure Head where
  name : Bytes
  subscript? : Option Bytes
  append : Bool
  /-- How many characters stand before the value. -/
  length : Nat

private def equals? (name : Bytes) (subscript? : Option Bytes) (length : Nat) :
    Bytes → Option Head
  | '=' :: _ => some ⟨name, subscript?, false, length + 1⟩
  | '+' :: '=' :: _ => some ⟨name, subscript?, true, length + 2⟩
  | _ => none

/-- A subscript between brackets and what follows it. -/
private def bracketed? (s : Bytes) : Option (Bytes × Bytes) :=
  match s with
  | '[' :: rest => enclosed? '[' ']' rest.length 0 rest
  | _ => none

/-- What makes a word an assignment. -/
def head? (s : Bytes) : Option Head :=
  let name := s.takeWhile isNameChar
  if !isName name then none
  else
    let rest := s.drop name.length
    match bracketed? rest with
    | some (subscript, after) =>
      equals? name (some subscript) (name.length + subscript.length + 2) after
    | none => equals? name none name.length rest

/-- The value of an assignment, which may be empty. -/
def value : Scan (List Part) := do
  if ← Scan.sees "<(" then return (← g.word?).getD [] else g.parts .word

/-- The next element of an array, of which the opening parenthesis has been passed. -/
def element? (line : Nat) : Scan (Option Element) := do
  Scan.space
  if ← Scan.accept ")" then return none
  if ← Scan.ends then throw (.openArray line)
  let indexed? := (bracketed? (← Scan.rest)).bind fun (subscript, after) =>
    (equals? [] (some subscript) (subscript.length + 2) after).map fun head => (subscript, head)
  match indexed? with
  | some (subscript, head) =>
    Scan.skip head.length
    let index ← Scan.within subscript (g.parts .whole)
    return some (.mk (some index) head.append (← g.value))
  | none =>
    match ← g.word? with
    | some parts => return some (.mk none false parts)
    | none =>
      let after := ((← Scan.rest).dropWhile (· != '\n')).drop 1
      throw (.element (← Scan.token) (← Scan.line) after)

/-- An assignment, if one comes next. -/
def assignment? : Scan (Option Assignment) := do
  match head? (← Scan.rest) with
  | none => return none
  | some head =>
    let written := (← Scan.rest).take head.length
    Scan.skip head.length
    if ← Scan.accept "(" then
      let name := written.take (head.length - if head.append then 2 else 1)
      return some (.array name head.append (← Scan.collect (g.element? (← Scan.line))))
    else
      let subscript? ← head.subscript?.mapM fun text => Scan.within text (g.parts .whole)
      return some (.scalar head.name subscript? head.append (← g.value))

/-! ## Simple commands -/

structure Draft where
  /-- The line of the command, which is that of its second piece. -/
  line : Nat
  assignments : List Assignment := []
  items : List Item := []
  redirects : List Redirect := []

namespace Draft

/-- How many pieces have been read. -/
def length (draft : Draft) : Nat :=
  draft.assignments.length + draft.items.length + draft.redirects.length

/-- The commands whose arguments may be assignments. -/
def declarations : List String := ["declare", "typeset", "local", "export", "readonly"]

def declares (draft : Draft) : Bool :=
  match draft.items with
  | .word [.plain name] :: _ => declarations.contains (String.ofList name)
  | _ => false

/-- The name of the function, if parentheses follow the only word. -/
def functionName? (draft : Draft) : Option Bytes :=
  match draft with
  | ⟨_, [], [.word [.plain name]], []⟩ => some name
  | _ => none

end Draft

/-- Adds the next piece of a simple command, if one comes next. -/
def extend? (draft : Draft) : Scan (Option Draft) := do
  Scan.blanks
  if let some redirect ← g.redirect? then
    return some { draft with redirects := draft.redirects ++ [redirect] }
  if draft.items.isEmpty then
    if let some assignment ← g.assignment? then
      return some { draft with assignments := draft.assignments ++ [assignment] }
  else if draft.declares then
    if let some assignment ← g.assignment? then
      return some { draft with items := draft.items ++ [.assignment assignment] }
  if draft.items.isEmpty && !draft.assignments.isEmpty then Scan.unalias
  match ← g.word? with
  | some parts => return some { draft with items := draft.items ++ [.word parts] }
  | none => return none

def draft : Scan Draft := do
  let rec go : Nat → Draft → Scan Draft
    | 0, read => return read
    | limit + 1, read => do
      -- Parentheses behind a name make a function of it.
      if read.functionName?.isSome then
        Scan.blanks
        if ← Scan.sees "(" then return read
      let next? ← g.extend? read
      let here ← Scan.line
      let read := if read.length = 1 && !read.items.isEmpty then { read with line := here }
        else read
      match next? with
      | some longer => go limit { longer with line := read.line }
      | none => return read
  go (← Scan.budget) { line := ← Scan.line }

/-! ## Compound commands -/

/-- Words that end a list of commands. -/
def closers : List String := ["then", "elif", "else", "fi", "do", "done", "esac", "\x7d"]

def seesWord (word : String) : Scan Bool := return (← Scan.bare) == word.toList

def acceptWord (word : String) : Scan Bool := do
  if ← seesWord word then
    Scan.skip word.length
    return true
  else return false

def expectWord (word : String) : Scan Unit := do
  if !(← acceptWord word) then Scan.unexpected

/-- A list of commands with at least one command. -/
def body : Scan (List Command) := do
  let commands ← g.script
  if commands.isEmpty then Scan.unexpected else return commands

def bodyUntil (closer : String) : Scan (List Command) := do
  let commands ← g.body
  expectWord closer
  return commands

/-- The body of a loop. -/
def loopBody : Scan (List Command) := do
  Scan.space
  if ← acceptWord "\x7b" then g.bodyUntil "\x7d"
  else
    expectWord "do"
    g.bodyUntil "done"

def branches : Scan (List Branch × List Command) := do
  let condition ← g.bodyUntil "then"
  let first := Branch.mk condition (← g.body)
  let more ← Scan.collect do
    if ← acceptWord "elif" then
      let condition ← g.bodyUntil "then"
      return some (Branch.mk condition (← g.body))
    else return none
  let otherwise ← if ← acceptWord "else" then g.body else pure []
  expectWord "fi"
  return (first :: more, otherwise)

/-- The three expressions of a counting loop. -/
def counters (text : Bytes) : Scan (List (List Part)) :=
  Scan.within text do
    let step : Scan (List Part) := do
      let parts ← g.parts (.expression (· = ';'))
      if ← Scan.accept ";" then return parts else Scan.unexpected
    return [← step, ← step, ← g.parts (.expression fun _ => false)]

/-- A loop over words, which are the parameters of the script if none are listed. -/
def wordLoop (make : Bytes → Option (List (List Part)) → List Command → Compound) :
    Scan Compound := do
  let name ← Scan.bare
  if name.isEmpty then Scan.unexpected
  Scan.skip name.length
  Scan.space
  if ← acceptWord "in" then
    let words ← Scan.collect do
      Scan.blanks
      g.word?
    if !(← Scan.accept ";") && !(← Scan.sees "\n") then Scan.unexpected
    return make name (some words) (← g.loopBody)
  else
    let _ ← Scan.accept ";"
    return make name none (← g.loopBody)

def forLoop : Scan Compound := do
  Scan.blanks
  if ← Scan.accept "((" then
    match ← arithmeticText? with
    | none => Scan.unexpected
    | some text =>
      let parts ← g.counters text
      Scan.blanks
      let _ ← Scan.accept ";"
      return .count (parts.getD 0 []) (parts.getD 1 []) (parts.getD 2 []) (← g.loopBody)
  else g.wordLoop .each

/-- The next clause of a `case`, if one comes next. -/
def clause? : Scan (Option Clause) := do
  Scan.space
  if ← acceptWord "esac" then return none
  let _ ← Scan.accept "("
  let pattern : Scan (List Part) := do
    Scan.blanks
    match ← g.word? with
    | some parts =>
      Scan.blanks
      return parts
    | none => Scan.unexpected
  let first ← pattern
  let others ← Scan.collect do
    if ← Scan.accept "|" then return some (← pattern) else return none
  if !(← Scan.accept ")") then Scan.unexpected
  let commands ← g.script
  let leaving : Leaving ←
    if ← Scan.accept ";;&" then pure .tryNext
    else if ← Scan.accept ";;" then pure .leave
    else if ← Scan.accept ";&" then pure .fallThrough
    else if ← seesWord "esac" then pure .leave
    else Scan.unexpected
  return some (.mk (first :: others) commands leaving)

def choice : Scan Compound := do
  Scan.blanks
  match ← g.word? with
  | none => Scan.unexpected
  | some subject =>
    Scan.space
    expectWord "in"
    return .choose subject (← Scan.collect g.clause?)

/-! ## Conditions -/

def unaryOperators : List String :=
  ["-a", "-b", "-c", "-d", "-e", "-f", "-g", "-h", "-k", "-n", "-o", "-p", "-r", "-s", "-t", "-u",
    "-v", "-w", "-x", "-z", "-G", "-L", "-N", "-O", "-R", "-S"]

def binaryOperators : List String :=
  ["=", "==", "!=", "=~", "<", ">", "-eq", "-ne", "-lt", "-le", "-gt", "-ge", "-nt", "-ot", "-ef"]

private def chain (operator : String) (join : Condition → Condition → Condition)
    (operand : Scan Condition) : Scan Condition := do
  let first ← operand
  let others ← Scan.collect do
    Scan.space
    if ← Scan.accept operator then return some (← operand) else return none
  return others.foldl join first

private def disjunction (term : Scan Condition) : Scan Condition :=
  chain "||" .either (chain "&&" .both term)

/-- The right side of a comparison, which may be a pattern or a regular expression. -/
def comparand (operator : Bytes) : Scan (List Part) := do
  Scan.blanks
  if operator = ['=', '~'] then
    g.parts { Mode.word with stops := fun c => isBlank c || c = '\n' }
  else
    let groups := (← get).groups
    let isPattern := ["=", "==", "!="].contains (String.ofList operator)
    modify fun input => { input with groups := groups || isPattern }
    let word? ← g.word?
    modify fun input => { input with groups }
    match word? with
    | some parts => return parts
    | none => Scan.unexpected

def conditionTerm : Nat → Scan Condition
  | 0 => Scan.unexpected
  | limit + 1 => do
    Scan.space
    if ← acceptWord "!" then return .negate (← conditionTerm limit)
    if ← Scan.accept "(" then
      let inner ← disjunction (conditionTerm limit)
      Scan.space
      if ← Scan.accept ")" then return inner else Scan.unexpected
    let operator ← Scan.bare
    if unaryOperators.contains (String.ofList operator) then
      Scan.skip operator.length
      Scan.blanks
      match ← g.word? with
      | some parts => return .unary operator parts
      | none => return .word [.plain operator]
    match ← g.word? with
    | none => Scan.unexpected
    | some left =>
      Scan.blanks
      let bare ← Scan.bare
      let operator ←
        if ← Scan.sees "<" then pure ['<'] else if ← Scan.sees ">" then pure ['>'] else pure bare
      if binaryOperators.contains (String.ofList operator) then
        Scan.skip operator.length
        return .binary operator left (← g.comparand operator)
      else return .word left

/-- A condition, the opening brackets of which have been passed. -/
def condition : Scan Condition := do
  let found ← disjunction (g.conditionTerm ((← Scan.rest).length + 1))
  Scan.space
  expectWord "]]"
  return found

/-! ## Commands -/

/-- A compound command, if one comes next. -/
def compound? : Scan (Option Compound) := do
  if ← Scan.sees "((" then
    let start ← get
    Scan.skip 2
    if let some text ← arithmeticText? then return some (.calculate (← g.expression text))
    set start
  if ← Scan.accept "(" then
    let commands ← g.body
    if ← Scan.accept ")" then return some (.subshell commands) else Scan.unexpected
  let word ← Scan.bare
  let take : Scan Unit := Scan.skip word.length
  match String.ofList word with
  | "\x7b" => take; return some (.group (← g.bodyUntil "\x7d"))
  | "if" =>
    take
    let (clauses, otherwise) ← g.branches
    return some (.branch clauses otherwise)
  | "while" | "until" =>
    take
    let condition ← g.bodyUntil "do"
    return some (.loop (word == "until".toList) condition (← g.bodyUntil "done"))
  | "for" => take; return some (← g.forLoop)
  | "select" =>
    take
    Scan.blanks
    return some (← g.wordLoop .menu)
  | "case" => take; return some (← g.choice)
  | "[[" => take; return some (.condition (← g.condition))
  | _ => return none

/-- The body of a function: a compound command with redirections of its own. -/
def functionBody : Scan Command := do
  Scan.space
  let line ← Scan.line
  match ← g.compound? with
  | some compound => return .compound line compound (← g.redirects)
  | none => Scan.unexpected

/-- A function that is named behind the word `function`. -/
def namedFunction : Scan Compound := do
  Scan.blanks
  let name ← Scan.bare
  if name.isEmpty then Scan.unexpected
  Scan.skip name.length
  Scan.blanks
  let before ← get
  if ← Scan.accept "(" then
    Scan.blanks
    -- Other parentheses belong to a body that is a subshell.
    if !(← Scan.accept ")") then set before
  return .define name (← g.functionBody)

def command : Scan Command := do
  Scan.blanks
  Scan.unalias
  Scan.blanks
  let line ← Scan.line
  if let some compound ← g.compound? then return .compound line compound (← g.redirects)
  if ← acceptWord "function" then return .compound line (← g.namedFunction) []
  if ("in" :: "]]" :: closers).contains (String.ofList (← Scan.bare)) then Scan.unexpected
  let draft ← g.draft
  match draft.functionName?, ← Scan.accept "(" with
  | some name, true =>
    Scan.blanks
    if !(← Scan.accept ")") then Scan.unexpected
    return .compound line (.define name (← g.functionBody)) []
  | _, true => Scan.unexpected
  | _, false =>
    if draft.length = 0 then Scan.unexpected
    return .simple draft.line draft.assignments draft.items draft.redirects

/-- A command with its errors sent along with its output. -/
def withErrors (command : Command) : Command :=
  let merge : Redirect := .duplicate (.number 2) false [.plain ['1']]
  match command with
  | .simple line assignments items redirects =>
    .simple line assignments items (redirects ++ [merge])
  | .compound line body redirects => .compound line body (redirects ++ [merge])
  | other => .compound 0 (.group [other]) [merge]

def pipeline : Scan Command := do
  Scan.blanks
  let marks ← Scan.collect do
    Scan.blanks
    if ← acceptWord "!" then return some true
    else if ← acceptWord "time" then
      Scan.blanks
      let _ ← acceptWord "-p"
      return some false
    else return none
  let negated := marks.count true % 2 == 1
  let rec go : Nat → Scan (List Command)
    | 0 => return []
    | limit + 1 => do
      let first ← g.command
      Scan.blanks
      if ← Scan.sees "||" then return [first]
      let first ← if ← Scan.accept "|&" then pure (some (withErrors first))
        else if ← Scan.accept "|" then pure (some first)
        else return [first]
      Scan.space
      if ← seesWord "!" then Scan.unexpected
      return first.toList ++ (← go limit)
  let c? ← Scan.peek
  if !marks.isEmpty && (c?.isNone || c? = some ';' || c? = some '\n') then
    return .pipeline negated []
  let commands ← go (← Scan.budget)
  match commands, marks with
  | [only], [] => return only
  | _, _ => return .pipeline negated commands

/-- Pipelines joined by `&&` and `||`, from left to right. -/
def chained : Scan Command := do
  let first ← g.pipeline
  let others ← Scan.collect do
    Scan.blanks
    if ← Scan.accept "&&" then
      Scan.space
      return some (true, ← g.pipeline)
    else if ← Scan.accept "||" then
      Scan.space
      return some (false, ← g.pipeline)
    else return none
  return others.foldl (fun left (isBoth, right) =>
    if isBoth then .both left right else .either left right) first

/-- What a list of commands ends at. -/
def atEnd : Scan Bool := do
  if ← Scan.ends then return true
  if ← Scan.sees ")" then return true
  if (← Scan.sees ";;") || (← Scan.sees ";&") then return true
  return closers.contains (String.ofList (← Scan.bare))

/-- What follows a command. -/
inductive Separator where
  | sameLine
  | newLine
  | nothing
deriving DecidableEq

/-- A command and what separates it from the next one. -/
def separated : Scan (Command × Separator) := do
  let command ← g.chained
  Scan.blanks
  if (← Scan.sees ";;") || (← Scan.sees ";&") then return (command, .nothing)
  else if ← Scan.accept ";" then return (command, .sameLine)
  else if (← Scan.sees "&") && !(← Scan.sees "&&") then
    Scan.skip 1
    return (.background command, .sameLine)
  else if ← Scan.accept "\n" then return (command, .newLine)
  else return (command, .nothing)

/-- Commands over any number of lines, up to what closes them. -/
def list : Scan (List Command) := do
  let rec go : Nat → List Command → Scan (List Command)
    | 0, read => return read.reverse
    | limit + 1, read => do
      Scan.space
      if ← atEnd then return read.reverse
      let (command, separator) ← g.separated
      if separator = .nothing then return (command :: read).reverse else go limit (command :: read)
  go (← Scan.budget) []

/-- The commands of the next line that has any; none at the end of the text. -/
def line? : Scan (Option (List Command)) := do
  let rec go : Nat → List Command → Scan (List Command)
    | 0, read => return read.reverse
    | limit + 1, read => do
      Scan.blanks
      if (← Scan.ends) || (← Scan.accept "\n") then return read.reverse
      let (command, separator) ← g.separated
      match separator with
      | .sameLine => go limit (command :: read)
      | .newLine => return (command :: read).reverse
      | .nothing => if ← Scan.ends then return (command :: read).reverse else Scan.unexpected
  Scan.space
  if ← Scan.ends then return none
  return some (← go (← Scan.budget) [])

end Grammar

/-- The grammar for texts that are nested no deeper than `depth`. -/
def grammar : Nat → Grammar
  | 0 => { parts := fun _ => Scan.unexpected, script := Scan.unexpected }
  | depth + 1 =>
    { parts := fun mode input => (grammar depth).readParts mode input
      script := fun input => (grammar depth).list input }

/-- The grammar that is deep enough for a text. -/
def grammarFor (text : Bytes) : Grammar := grammar (2 * text.length + 2)

end Provision.Shell
