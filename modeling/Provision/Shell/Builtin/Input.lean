import Provision.Shell.Condition
import Provision.Shell.Options

/-!
# Builtins that read

`read` takes a line apart, `mapfile` makes an array of lines, and `getopts` reads the options of a
script.
-/

namespace Provision.Shell.Builtin

/-! ## Lines -/

/-- What ends a line, and how much of it is read at most. -/
structure Limits where
  delimiter? : Option Char := some '\n'
  count? : Option Nat := none
  /-- Backslashes are nothing special. -/
  raw : Bool := false

/-- What has been read, and whether the end of the line was found. -/
structure Line where
  text : List Marked := []
  length : Nat := 0
  complete : Bool := false

/-- The next line of a text. A character behind a backslash is quoted. -/
def Limits.next (limits : Limits) (s : Bytes) : Line :=
  let rec go : Nat → Bytes → Line → Line
    | 0, _, line => line
    | limit + 1, s, line =>
      if limits.count? = some line.text.length then { line with complete := true }
      else match s with
        | [] => line
        | c :: rest =>
          let passed := { line with length := line.length + 1 }
          if some c = limits.delimiter? then { passed with complete := true }
          else if c = '\\' && !limits.raw then
            match rest with
            | [] => passed
            | '\n' :: more => go limit more { line with length := line.length + 2 }
            | d :: more =>
              go limit more { line with text := (d, true) :: line.text, length := line.length + 2 }
          else if c.toNat = 0 then go limit rest passed
          else go limit rest { passed with text := (c, false) :: line.text }
  let line := go (s.length + 1) s {}
  { line with text := line.text.reverse }

/-! ## Fields -/

def isSeparator (separators : Bytes) (m : Marked) : Bool := !m.2 && separators.contains m.1

def isSoft (separators : Bytes) (m : Marked) : Bool :=
  isSeparator separators m && (isBlank m.1 || m.1 = '\n')

/-- The first field of a text, and what follows its separator. -/
def firstField (separators : Bytes) (s : List Marked) : List Marked × List Marked :=
  let field := s.takeWhile (!isSeparator separators ·)
  let rest := (s.drop field.length).dropWhile (isSoft separators)
  match rest with
  | m :: after =>
    let hard := isSeparator separators m
    (field, if hard then after.dropWhile (isSoft separators) else rest)
  | [] => (field, [])

/-- The values of so many variables; the last one gets all that is left. -/
def fieldsFor (separators : Bytes) : Nat → List Marked → List Bytes
  | 0, _ => []
  | 1, s =>
    let (field, rest) := firstField separators s
    let whole := (s.reverse.dropWhile (isSoft separators)).reverse
    [plainText (if rest.isEmpty then field else whole)]
  | n + 2, s =>
    let (field, rest) := firstField separators s
    plainText field :: fieldsFor separators (n + 1) rest

def allFields (separators : Bytes) (s : List Marked) : List Bytes :=
  let rec go : Nat → List Marked → List Bytes
    | 0, _ => []
    | limit + 1, s =>
      if s.isEmpty then []
      else
        let (field, rest) := firstField separators s
        plainText field :: go limit rest
  go (s.length + 1) s

/-! ## Where lines come from -/

/-- The descriptor that an option names. -/
def inputOf? (name : String) (value? : Option Bytes) : Act (Option Nat) := do
  match value? with
  | none => return some 0
  | some word =>
    match integer? word with
    | some (.ofNat n) =>
      if ((← get).descriptor? n).isSome then return some n
      else
        Act.complainOf name s!"{n}: invalid file descriptor: Bad file descriptor"
        return none
    | _ =>
      Act.complainOf name s!"{shown word}: invalid file descriptor specification"
      return none

/-- A number that an option has; none, with a message, if it is no number. -/
def countOf? (name problem : String) (value? : Option Bytes) : Act (Option (Option Nat)) := do
  match value? with
  | none => return some none
  | some word =>
    match integer? word with
    | some (.ofNat n) => return some (some n)
    | _ =>
      Act.complainOf name s!"{shown word}: {problem}"
      return none

/-- A name with the subscript that it may have. -/
def target (word : Bytes) : Bytes × Option Bytes :=
  let name := word.takeWhile (· != '[')
  if name.length = word.length then (word, none)
  else (name, some ((word.drop (name.length + 1)).dropLast))

def assignWord (e : Engine) (builtin : String) (word text : Bytes) : Act Bool := do
  let (name, subscript?) := target word
  if isName name then e.assign name subscript? false text
  else
    Act.refuseName builtin word
    return false

/-! ## Reading a line -/

/-- Puts what was read where the operands say. -/
def distribute (e : Engine) (options : Options) (whole : Bool) (line : List Marked) :
    Act Bool := do
  let separators := (← get).separators
  let trimmed := line.dropWhile (isSoft separators)
  match options.value? 'a', options.operands with
  | some array, _ =>
    if !isName array then
      Act.refuseName "read" array
      return false
    let elements := (allFields separators trimmed).map fun text => (none, false, text)
    e.assignArray array false elements
  | none, [] => e.assign "REPLY".toList none false (plainText line)
  | none, words =>
    let texts := if whole then
        plainText line :: List.replicate (words.length - 1) []
      else fieldsFor separators words.length trimmed
    (words.zip texts).foldlM (fun done (word, text) => do
      if !done then return false else assignWord e "read" word text) true

def readFrom (e : Engine) (options : Options) (n : Nat) (count? whole? : Option Nat) :
    Act Unit := do
  let state ← get
  let id := (state.descriptor? n).getD 0
  if state.stream id matches .directory then
    Act.complainOf "read" s!"read error: {n}: Is a directory"
    Act.fail
  else
    let given? := options.value? 'd'
    let delimiter := (given?.bind (·.head?)).getD (if given?.isSome then Char.ofNat 0 else '\n')
    let limits : Limits :=
      { delimiter? := if whole?.isSome then none else some delimiter
        count? := whole?.or count?
        raw := options.has 'r' }
    let line := limits.next (state.available id)
    set (state.consume id line.length)
    let done ← distribute e options whole?.isSome line.text
    if done && line.complete then Act.succeed else Act.fail

def read (e : Engine) (words : List Bytes) : Act Unit :=
  Act.withOptions "read" "ers" "adinNptu" words fun options => do
    let some n ← inputOf? "read" (options.value? 'u') | Act.fail
    let some count? ← countOf? "read" "invalid number" (options.value? 'n') | Act.fail
    let some whole? ← countOf? "read" "invalid number" (options.value? 'N') | Act.fail
    let time? := options.value? 't'
    if time?.any fun time => !time.all fun c => c.isDigit || c = '.' then
      let word := time?.getD []
      Act.complainOf "read" s!"{shown word}: invalid timeout specification"
      Act.fail
    else if time? = some ['0'] then Act.succeed
    else readFrom e options n count? whole?

/-! ## Arrays of lines -/

/-- Lines with what ends them. -/
def splitLines (delimiter : Char) (s : Bytes) : List Bytes :=
  let rec go : Nat → Bytes → List Bytes
    | 0, _ => []
    | limit + 1, s =>
      if s.isEmpty then []
      else
        let line := s.takeWhile (· != delimiter)
        (line ++ (s.drop line.length).take 1) :: go limit (s.drop (line.length + 1))
  go (s.length + 1) s

def fillArray (e : Engine) (options : Options) (name : Bytes) (n : Nat)
    (count? origin? passed? : Option Nat) : Act Unit := do
  let state ← get
  let id := (state.descriptor? n).getD 0
  let given? := options.value? 'd'
  let delimiter := (given?.bind (·.head?)).getD (if given?.isSome then Char.ofNat 0 else '\n')
  let lines := splitLines delimiter (state.available id)
  let passed := passed?.getD 0
  let taken := match count? with
    | some count => if count = 0 then lines else lines.take (passed + count)
    | none => lines
  set (state.consume id taken.flatten.length)
  let texts := (taken.drop passed).map fun line =>
    if options.has 't' && line.getLast? = some delimiter then line.dropLast else line
  let start := origin?.getD 0
  let elements := texts.zipIdx.map fun (text, i) =>
    (some (decimalOf (start + i)), false, text.filter fun c => c.toNat != 0)
  if ← e.assignArray name origin?.isSome elements then Act.succeed else Act.fail

def mapfile (e : Engine) (builtin : String) (words : List Bytes) : Act Unit :=
  Act.withOptions builtin "t" "cCdnOsu" words fun options => do
    let some n ← inputOf? builtin (options.value? 'u') | Act.fail
    let some count? ← countOf? builtin "invalid line count" (options.value? 'n') | Act.fail
    let some origin? ← countOf? builtin "invalid array origin" (options.value? 'O') | Act.fail
    let some passed? ← countOf? builtin "invalid line count" (options.value? 's') | Act.fail
    let name := options.operands.headD "MAPFILE".toList
    if !isName name then
      Act.refuseName builtin name
      Act.fail
    else if (← get).value? name matches some (.keyed _) then
      Act.complainOf builtin s!"{shown name}: not an indexed array"
      Act.fail
    else fillArray e options name n count? origin? passed?

/-! ## Options of scripts -/

/-- What one step of reading options finds. -/
structure Step where
  answer : Bytes
  argument? : Option Bytes := none
  message? : Option String := none
  /-- The number of the word to go on with, and how far it has been read. -/
  index : Nat
  offset : Nat := 0
  ends : Bool := false

/-- Reads the next option of some words, the first of which has the number one. -/
def nextOption (form : Bytes) (words : List Bytes) (index offset : Nat) : Step :=
  let quiet := form.head? = some ':'
  let form := if quiet then form.drop 1 else form
  let done (index : Nat) : Step := { answer := ['?'], index, ends := true }
  match words[index - 1]? with
  | none => done index
  | some word =>
    if offset = 0 && (word.head? != some '-' || word.length = 1) then done index
    else if offset = 0 && word = ['-', '-'] then done (index + 1)
    else
      let here := max offset 1
      let letter := word.getD here '?'
      let last := word.length ≤ here + 1
      let after (step : Step) : Step :=
        if last then { step with index := index + 1 } else { step with index, offset := here + 1 }
      match form.dropWhile (· != letter) with
      | _ :: more =>
        if letter = ':' then
          after { answer := ['?'], index, argument? := if quiet then some [letter] else none }
        else if more.head? != some ':' then after { answer := [letter], index }
        else if !last then
          { answer := [letter], argument? := some (word.drop (here + 1)), index := index + 1 }
        else match words[index]? with
          | some value => { answer := [letter], argument? := some value, index := index + 2 }
          | none =>
            if quiet then { answer := [':'], argument? := some [letter], index := index + 1 }
            else
              { answer := ['?'], index := index + 1
                message? := some s!"option requires an argument -- {letter}" }
      | [] =>
        if quiet then after { answer := ['?'], argument? := some [letter], index }
        else after { answer := ['?'], index, message? := some s!"illegal option -- {letter}" }

def getopts (e : Engine) (words : List Bytes) : Act Unit := do
  match words with
  | form :: name :: given => do
    let state ← get
    let index := match (state.textOf? "OPTIND").bind integer? with
      | some (.ofNat n) => max n 1
      | _ => 1
    let words := if given.isEmpty then state.positional else given
    let step := nextOption form words index state.optionOffset
    if let some message := step.message? then
      if state.textOf? "OPTERR" != some ['0'] then
        discard (Act.write 2 (bytesOfString s!"{shown state.name}: {message}\n"))
    modify fun state => state.setText "OPTIND" (decimalOf step.index)
    modify fun state => { state with optionOffset := step.offset }
    match step.argument? with
    | some text => modify fun state => state.setText "OPTARG" text
    | none => modify fun state => state.unbind "OPTARG".toList
    if (← assignWord e "getopts" name step.answer) && !step.ends then Act.succeed else Act.fail
  | _ =>
    discard (Act.write 2 "getopts: usage: getopts optstring name [arg ...]\n".toList)
    Act.finish 2

end Provision.Shell.Builtin
