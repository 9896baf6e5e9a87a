import Provision.Shell.Brace
import Provision.Shell.Engine

/-!
# Expansion

What the parts of a word stand for, and how a word becomes the words that a command is given.
-/

namespace Provision.Shell

/-- What a parameter has: one text, or the elements of a list. -/
inductive Found where
  | one (text? : Option Bytes)
  | many (texts : List Bytes) (star : Bool)

namespace Found

/-- There is a value, and it is not empty if that is asked for. -/
def holds (found : Found) (orEmpty : Bool) : Bool :=
  match found with
  | one none => false
  | one (some text) => !(orEmpty && text.isEmpty)
  | many texts _ => !texts.isEmpty && !(orEmpty && texts.all (·.isEmpty))

def map (f : Bytes → Bytes) : Found → Found
  | one text? => one (text?.map f)
  | many texts star => many (texts.map f) star

/-- The pieces of a value. The elements of a list stay apart unless they are to be joined. -/
def pieces (found : Found) (quoted : Bool) (joint : Bytes) : List Piece :=
  let origin : Origin := if quoted then .quoted else .expanded
  match found with
  | one text? => Piece.ofText origin (text?.getD [])
  | many texts star =>
    if quoted && star then Piece.ofText origin (joint.intercalate texts)
    else
      let separator : List Piece := [.cut (if star then joint else [' '])]
      separator.intercalate (texts.map fun text =>
        (if quoted then [.mark] else []) ++ Piece.ofText origin text)

end Found

namespace Engine

variable (e : Engine)

/-! ## Parameters -/

def elements (state : State) (name : Bytes) : List (Bytes × Bytes) :=
  (state.value? name).elim [] State.elementsOf

/-- What a parameter has. -/
def find (name : Bytes) (subscript? : Option Subscript) : Act Found := do
  let state ← get
  if name = ['@'] then return .many state.positional false
  if name = ['*'] then return .many state.positional true
  match subscript?, state.special? name with
  | _, some text? => return .one text?
  | some (.all star), none => return .many ((elements state name).map (·.2)) star
  | some (.one index), none =>
    let value? := state.value? name
    let key ← e.key value? (← e.text index)
    return .one (value?.bind (elementOf? · key))
  | none, none => return .one ((state.value? name).bind State.scalarOf)

/-- A name with the subscript that it may have, as it stands in a value. -/
def readReference (text : Bytes) : Bytes × Option Subscript :=
  let name := text.takeWhile (· != '[')
  let inside := (text.drop (name.length + 1)).dropLast
  if name.length = text.length then (name, none)
  else if inside = ['@'] then (name, some (.all false))
  else if inside = ['*'] then (name, some (.all true))
  else (name, some (.one [.quoted inside]))

/-- A text that names a parameter, or an element of an array. -/
def isParameter (text : Bytes) : Bool :=
  let name := text.takeWhile (· != '[')
  if name.length < text.length then isName name && text.getLast? = some ']'
  else isName text || (!text.isEmpty && text.all Char.isDigit) ||
    (text.length = 1 && text.all fun c => "@*#?-$!".toList.contains c)

/-- The parameter as a message names it. -/
def titleOf : Subject → Bytes
  | .mk indirect name _ => if indirect then '!' :: name else name

/-- The parameter that an expansion is about. -/
def subject : Subject → Act (Bytes × Option Subscript)
  | .mk false name subscript? => return (name, subscript?)
  | .mk true name subscript? => do
    match ← e.find name subscript? with
    | .one (some text) =>
      if isParameter text then return readReference text
      else Act.abandon s!"{shown text}: invalid variable name"
    | .one none =>
      if name.all Char.isDigit then return (name, none)
      else Act.abandon s!"{shown name}: invalid indirect expansion"
    | .many texts _ => return readReference (texts.headD [])

/-- Fails for a parameter without a value if the shell is to. -/
def require (name : Bytes) (found : Found) : Act Unit := do
  let state ← get
  if state.has "nounset" then
    match found with
    | .one none => unbound name
    | _ => return

/-- Fails for the number of the elements of a variable that there is not. -/
def requireList (name : Bytes) (found : Found) : Act Unit := do
  let state ← get
  if state.has "nounset" && isName name && (state.value? name).isNone then
    match found with
    | .many _ _ => Act.abandon s!"{shown name}: unbound variable"
    | .one _ => return

/-! ## Operations -/

/-- A place among so many items, `last` at most, and the length of the part behind it; none if there
is no such place. The length of nothing is not calculated. -/
def stretch? (size last : Nat) (offset : List Part) (length? : Option (List Part)) :
    Act (Option (Nat × Option Int)) := do
  let n ← e.calculate "" (← e.text offset)
  let start := if n < 0 then n + size else n
  if start < 0 || (last : Int) < start then return none
  let length? ← length?.mapM fun parts => do e.calculate "" (← e.text parts)
  return some (start.toNat, length?)

def sliced (name : Bytes) (found : Found) (offset : List Part) (length? : Option (List Part)) :
    Act Found := do
  let refuse {α : Type} (length : Int) : Act α :=
    Act.abandonLine s!"{length}: substring expression < 0"
  match found with
  | .one none => return found
  | .one (some text) =>
    match ← e.stretch? text.length text.length offset length? with
    | none => return .one (some [])
    | some (start, none) => return .one (some (text.drop start))
    | some (start, some length) =>
      let stop := if length < 0 then text.length + length else start + length
      if stop < start then refuse length
      else return .one (some ((text.take stop.toNat).drop start))
  | .many texts star =>
    let positional := name = ['@'] || name = ['*']
    if texts.isEmpty && !positional then return found
    let state ← get
    -- Positional parameters stand behind the name of the shell, and the offset into an array is a
    -- subscript.
    let items : List (Nat × Bytes) :=
      if positional then (state.name :: texts).zipIdx.map fun (text, i) => (i, text)
      else (elements state name).map fun (key, text) => (numberOf key, text)
    let size := Value.next items
    match ← e.stretch? size (if positional then size else size - 1) offset length? with
    | none => return .many [] star
    | some (start, length?) =>
      if let some length := length?.filter (· < 0) then refuse length
      let later := (items.filter fun item => start ≤ item.1).map (·.2)
      return .many (length?.elim later fun n => later.take n.toNat) star

/-- What is put in the place of a match: the match itself where the text has an ampersand. -/
def replacementFor (ampersands : Bool) (text : List Marked) (found : Bytes) : Bytes :=
  match text with
  | [] => []
  | ('\\', false) :: ('&', false) :: rest =>
    (if ampersands then ['&'] else ['\\', '&']) ++ replacementFor ampersands rest found
  | (c, isQuoted) :: rest =>
    (if ampersands && c = '&' && !isQuoted then found else [c]) ++
      replacementFor ampersands rest found

def replaced (place : Place) (pattern : List Pattern) (replacement : Bytes → Bytes)
    (text : Bytes) : Bytes :=
  match place with
  | .first => Pattern.replace false pattern replacement text
  | .all => Pattern.replace true pattern replacement text
  | .start => Pattern.replaceStart pattern replacement text
  | .finish => Pattern.replaceEnd pattern replacement text

/-- Letters that match a pattern change, the first character only or all. -/
def recasedText (kind : Recase) (all : Bool) (pattern : List Pattern) (text : Bytes) : Bytes :=
  let change (c : Char) : Char :=
    if pattern.isEmpty || Pattern.isMatch false pattern [c] then recased kind c else c
  if all then text.map change else (text.take 1).map change ++ text.drop 1

/-- The letters of the attributes of a variable. -/
def attributes (binding : Binding) : Bytes :=
  let letters := [(binding.value? matches some (.indexed _), 'a'),
    (binding.value? matches some (.keyed _), 'A'), (binding.integer, 'i'),
    (binding.reference, 'n'), (binding.readOnly, 'r'), (binding.exported, 'x'),
    (binding.recase? = some .lower, 'l'), (binding.recase? = some .upper, 'u')]
  (letters.filter (·.1)).map (·.2)

def reusable (text : Bytes) : Bytes :=
  if text.any fun c => !isPrintable c && c.toNat < 0x80 then ansiQuote text else singleQuote text

/-- A transformation by its letter. -/
def transformed? (state : State) (name : Bytes) (letter : Char) (found : Found) : Option Found :=
  match letter with
  | 'Q' => some (found.map reusable)
  | 'U' => some (found.map (·.map Char.toUpper))
  | 'u' => some (found.map (recasedText .upper false []))
  | 'L' => some (found.map (·.map Char.toLower))
  | 'E' => some (found.map ansi)
  | 'P' => some found
  | 'a' =>
    let letters := attributes ((state.binding? name).getD {})
    match found with
    | .one _ => some (.one (some letters))
    | .many texts star => some (.many (texts.map fun _ => letters) star)
  | 'A' => some (found.map fun text => name ++ '=' :: reusable text)
  | 'K' | 'k' => some (found.map reusable)
  | _ => none

/-- The pieces of a word behind an operator, which are split unless they are quoted. -/
def operandPieces (quoted : Bool) (word : List Part) : Act (List Piece) := do
  if quoted then
    let pieces ← e.allPieces true word
    return if pieces.isEmpty then [.mark] else pieces
  else
    return (← e.wordPieces word).map fun piece =>
      match piece with
      | .char c .literal => .char c .expanded
      | other => other

/-- A value that stands in for one that is missing. -/
def fallback (quoted : Bool) (name : Bytes) (subscript? : Option Subscript) (found : Found)
    (kind : Fallback) (orEmpty : Bool) (word : List Part) : Act (List Piece) := do
  let pieces := found.pieces quoted (← get).joint
  let holds := found.holds orEmpty
  match kind with
  | .stand => if holds then return pieces else e.operandPieces quoted word
  | .replace => if holds then e.operandPieces quoted word else return []
  | .assign =>
    if holds then return pieces
    if !isName name then Act.abandon s!"${shown name}: cannot assign in this way"
    let text ← e.text word
    let index? ← match subscript? with
      | some (.one index) => some <$> e.text index
      | _ => pure none
    if let some (.all star) := subscript? then
      let subscript := if star then "[*]" else "[@]"
      Act.abandon s!"{shown name}{subscript}: bad array subscript"
    if !(← e.assign name index? false text) then Act.surrender
    return Piece.ofText (if quoted then .quoted else .expanded) text
  | .complain =>
    if holds then return pieces
    let message := shown (← e.text word)
    let default := if orEmpty then "parameter null or not set" else "parameter not set"
    let reason := if message.isEmpty then default else message
    giveUp s!"{shown name}: {reason}"

/-- What an operation makes of what a parameter has. -/
def operated (name : Bytes) (found : Found) (operation : Operation) : Act Found := do
  let state ← get
  match operation with
  | .length =>
    let n := match found with
      | .one text? => (text?.getD []).length
      | .many texts _ => texts.length
    return .one (some (decimalOf n))
  | .trim atEnd longest pattern =>
    let pattern ← e.pattern pattern
    return found.map fun text =>
      if atEnd then Pattern.trimEnd longest pattern text
      else Pattern.trimStart longest pattern text
  | .replace place pattern replacement =>
    let pattern ← e.pattern pattern
    let text ← e.marked replacement
    let ampersands := state.hasExtra "patsub_replacement"
    let anywhere := place = .first || place = .all
    return if pattern.isEmpty && anywhere then found
      else found.map (replaced place pattern (replacementFor ampersands text))
  | .slice offset length? => e.sliced name found offset length?
  | .recase kind all pattern =>
    if name.all fun c => "#?-$!".toList.contains c then
      Act.abandon s!"$\x7b{shown name}\x7d: bad substitution"
    let pattern ← e.pattern pattern
    return found.map (recasedText kind all pattern)
  | .transform letter =>
    match transformed? state name letter found with
    | some found => return found
    | none =>
      if found.holds false then
        Act.abandon s!"$\x7b{shown name}@{letter}\x7d: bad substitution"
      else return .one none
  | .value | .names _ | .keys _ | .fallback _ _ _ => return found

/-- The name that a reference holds, if the expansion asks for it. -/
def referred? (state : State) : Subject → Option Bytes
  | .mk true name none =>
    match state.binding? name with
    | some { reference := true, value? := some value, .. } => State.scalarOf value
    | _ => none
  | _ => none

/-- The pieces of a parameter expansion. -/
def parameter (quoted : Bool) (subject : Subject) (operation : Operation) : Act (List Piece) := do
  let state ← get
  if let some name := referred? state subject then
    return (Found.one (some name)).pieces quoted state.joint
  let (name, subscript?) ← e.subject subject
  match operation with
  | .names star =>
    let names := (state.scopes.flatMap fun scope => scope.map (·.1)).filter name.isPrefixOf
    let sorted := names.eraseDups.mergeSort inOrder
    return (Found.many sorted star).pieces quoted state.joint
  | .keys star =>
    return (Found.many ((elements state name).map (·.1)) star).pieces quoted state.joint
  | .fallback kind orEmpty word =>
    e.fallback quoted name subscript? (← e.find name subscript?) kind orEmpty word
  | _ =>
    let found ← e.find name subscript?
    require (titleOf subject) found
    if operation matches .length then requireList name found
    return (← e.operated name found operation).pieces quoted (← get).joint

/-! ## Parts -/

/-- A part that yields nothing at all if its list is empty, even between quotes. -/
def isList : Part → Bool
  | .parameter (.mk _ name subscript?) operation =>
    (name = ['@'] || (subscript? matches some (.all false)) || (operation matches .keys false)) &&
      !(operation matches .length)
  | _ => false

/-- The file that a substitution does nothing but read. -/
def onlyRead? : List Command → Option (List Part)
  | [.simple _ [] [] [.file (.number 0) .read path]] => some path
  | _ => none

/-- What a part yields. -/
def part (quoted : Bool) : Part → Act (List Piece)
  | .plain text => return Piece.ofText (if quoted then .quoted else .literal) text
  | .quoted text => return if text.isEmpty && !quoted then [.mark] else Piece.ofText .quoted text
  | .double parts => do
    let pieces ← e.allPieces true parts
    if !pieces.isEmpty then return pieces
    else return if !quoted && !parts.any isList then [.mark] else []
  | .parameter subject operation => e.parameter quoted subject operation
  | .unknown text => Act.abandon s!"$\x7b{shown text}\x7d: bad substitution"
  | .arithmetic expression => do
    let n ← e.calculate "" (← e.text expression)
    return Piece.ofText (if quoted then .quoted else .expanded) (Expression.text n)
  | .substitution body => do
    let text ← match onlyRead? body with
      | some path => do
        let path ← e.text path
        e.captureText do
          match (← get).files.read (pathOf path) with
          | .ok content =>
            discard (Act.write 1 (bytesOf content))
            Act.succeed
          | .error fault =>
            Act.complain s!"{shown path}: {fault.reason}"
            Act.fail
      | none => e.captureText (e.runAll body)
    return Piece.ofText (if quoted then .quoted else .expanded) text
  | .deferred script => do
    let text ← e.captureText do
      modify fun state => { state with reading := "command substitution: " }
      e.source script
    return Piece.ofText (if quoted then .quoted else .expanded) text
  | .process body => do
    let output ← e.capture (e.runAll body)
    let (state, id) := (← get).addStream (.source output)
    let used := (List.range 64).reverse.find? fun n => (state.descriptor? n).isNone
    let n := used.getD 63
    set (state.setDescriptor n id)
    return Piece.ofText .quoted ("/dev/fd/".toList ++ decimalOf n)

/-! ## Words -/

/-- The words that a word of a command stands for. -/
def words (parts : List Part) : Act (List Bytes) := do
  let state ← get
  let alternatives := if state.has "braceexpand" then Brace.expand parts else [parts]
  let expanded ← alternatives.mapM fun parts => do
    let pieces ← e.wordPieces parts
    let state ← get
    let fields := Piece.split state.separators pieces
    let found ← fields.mapM fun field =>
      match state.wordsOf? field with
      | some found => pure found
      | none => Act.abandon s!"no match: {shown (plainText field)}"
    return found.flatten
  return expanded.flatten

end Engine

end Provision.Shell
