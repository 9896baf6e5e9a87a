import Provision.Json.Value

/-!
# Scanning JSON

The pieces of a JSON text, each read off the front of the characters that are left. A fault carries
what was left when it was found, from which its line and column follow.
-/

namespace Provision.Json

/-! ## Faults -/

inductive Malformed where
  | endInList
  | endInObject
  | endInString
  | endInValue
  | expectedColon
  | expectedListEnd
  | expectedObjectEnd
  | expectedWord
  | expectedValue
  | invalidEscape
  | invalidNumber
  | numberOutOfRange
  | controlCharacter
  | keyNotString
  | loneSurrogate
  | endOfEscape
  | trailingComma
  | trailingCharacters
deriving DecidableEq

def Malformed.message : Malformed → String
  | endInList => "EOF while parsing a list"
  | endInObject => "EOF while parsing an object"
  | endInString => "EOF while parsing a string"
  | endInValue => "EOF while parsing a value"
  | expectedColon => "expected `:`"
  | expectedListEnd => "expected `,` or `]`"
  | expectedObjectEnd => "expected `,` or `\x7d`"
  | expectedWord => "expected ident"
  | expectedValue => "expected value"
  | invalidEscape => "invalid escape"
  | invalidNumber => "invalid number"
  | numberOutOfRange => "number out of range"
  | controlCharacter => "control character (\\u0000-\\u001F) found while parsing a string"
  | keyNotString => "key must be a string"
  | loneSurrogate => "lone leading surrogate in hex escape"
  | endOfEscape => "unexpected end of hex escape"
  | trailingComma => "trailing comma"
  | trailingCharacters => "trailing characters"

/-- The text is not JSON, or it is JSON of the wrong shape. -/
inductive Problem where
  | malformed (problem : Malformed)
  | mismatch (detail : String)
deriving DecidableEq

def Problem.message : Problem → String
  | malformed problem => problem.message
  | mismatch detail => detail

structure Fault where
  problem : Problem
  /-- What had not been read yet. -/
  left : List Char
  /-- The fault is the first character of what is left, which counts as read. -/
  peeked : Bool := false

/-- Line, from 1, and column in bytes of the end of what has been read. -/
def Fault.position (fault : Fault) (text : List Char) : Nat × Nat :=
  let read := text.take (text.length - fault.left.length)
  let read := if fault.peeked then read ++ (fault.left.take 1).map fun c =>
      if c = '\n' then c else ' '
    else read
  let last := read.reverse.takeWhile (· != '\n')
  (1 + read.count '\n', last.foldl (fun size c => size + c.utf8Size) 0)

def Fault.message (fault : Fault) (text : List Char) : String :=
  let (line, column) := fault.position text
  s!"{fault.problem.message} at line {line} column {column}"

/-- What is wrong lies in what has been read. -/
def bad {α : Type} (problem : Malformed) (left : List Char) : Except Fault α :=
  .error ⟨.malformed problem, left, false⟩

/-- What is wrong is the next character. -/
def badNext {α : Type} (problem : Malformed) (left : List Char) : Except Fault α :=
  .error ⟨.malformed problem, left, true⟩

/-! ## Blanks and words -/

def isSpace (c : Char) : Bool := c = ' ' || c = '\n' || c = '\t' || c = '\r'

def skipSpace (s : List Char) : List Char := s.dropWhile isSpace

/-- The rest of a word of which the first letter has been read. -/
def word : List Char → List Char → Except Fault (List Char)
  | [], s => .ok s
  | _ :: _, [] => bad .endInValue []
  | expected :: more, c :: rest => if c = expected then word more rest else bad .expectedWord rest

/-! ## Strings -/

def hexValue? (c : Char) : Option Nat :=
  if c.isDigit then some (c.toNat - 0x30)
  else if 'a' ≤ c && c ≤ 'f' then some (c.toNat - 0x61 + 10)
  else if 'A' ≤ c && c ≤ 'F' then some (c.toNat - 0x41 + 10)
  else none

def hexEscape (s : List Char) : Except Fault (Nat × List Char) :=
  match s with
  | a :: b :: c :: d :: rest =>
    match hexValue? a, hexValue? b, hexValue? c, hexValue? d with
    | some a, some b, some c, some d => .ok (((a * 16 + b) * 16 + c) * 16 + d, rest)
    | _, _, _, _ => bad .invalidEscape rest
  | _ => bad .endInString []

/-- The code point of an escape after its `\u`; one outside the basic plane is written as two. -/
def codePoint (s : List Char) : Except Fault (Nat × List Char) := do
  let (first, rest) ← hexEscape s
  if 0xDC00 ≤ first && first ≤ 0xDFFF then bad .loneSurrogate rest
  else if first < 0xD800 || 0xDBFF < first then return (first, rest)
  else match rest with
    | [] => bad .endInString []
    | '\\' :: 'u' :: more => do
      let (second, rest) ← hexEscape more
      if second < 0xDC00 || 0xDFFF < second then bad .loneSurrogate rest
      else return (0x10000 + (first - 0xD800) * 0x400 + (second - 0xDC00), rest)
    | '\\' :: [] => bad .endInString []
    | '\\' :: _ :: more => bad .endOfEscape more
    | _ :: more => bad .endOfEscape more

def plainEscape? (c : Char) : Option Char :=
  if c = '"' || c = '\\' || c = '/' then some c
  else if c = 'b' then some (Char.ofNat 0x08)
  else if c = 'f' then some (Char.ofNat 0x0C)
  else if c = 'n' then some '\n'
  else if c = 'r' then some '\r'
  else if c = 't' then some '\t'
  else none

theorem length_hexEscape {s : List Char} {n : Nat} {rest : List Char}
    (h : hexEscape s = .ok (n, rest)) : rest.length < s.length := by
  unfold hexEscape at h
  split at h
  · split at h
    · simp only [Except.ok.injEq, Prod.mk.injEq] at h
      obtain ⟨-, rfl⟩ := h
      simp only [List.length_cons]
      omega
    · simp [bad] at h
  · simp [bad] at h

theorem length_codePoint {s : List Char} {n : Nat} {rest : List Char}
    (h : codePoint s = .ok (n, rest)) : rest.length < s.length := by
  unfold codePoint at h
  cases hfirst : hexEscape s with
  | error e => simp [hfirst, bind, Except.bind] at h
  | ok pair =>
    obtain ⟨first, left⟩ := pair
    have hlen := length_hexEscape hfirst
    simp only [hfirst, bind, Except.bind] at h
    split at h
    · simp [bad] at h
    · split at h
      · simp only [pure, Except.pure, Except.ok.injEq, Prod.mk.injEq] at h
        obtain ⟨-, rfl⟩ := h
        exact hlen
      · split at h
        · simp [bad] at h
        · rename_i more
          cases hsecond : hexEscape more with
          | error e => simp [hsecond] at h
          | ok pair =>
            obtain ⟨second, after⟩ := pair
            have hmore := length_hexEscape hsecond
            simp only [hsecond] at h
            split at h
            · simp [bad] at h
            · simp only [pure, Except.pure, Except.ok.injEq, Prod.mk.injEq] at h
              obtain ⟨-, rfl⟩ := h
              simp only [List.length_cons] at hlen
              omega
        all_goals simp [bad] at h

/-- The rest of a string whose opening quote has been read. -/
def stringRest (s : List Char) : Except Fault (List Char × List Char) :=
  match s with
  | [] => bad .endInString []
  | '"' :: rest => .ok ([], rest)
  | ['\\'] => bad .endInString []
  | '\\' :: 'u' :: rest =>
    match h : codePoint rest with
    | .error fault => .error fault
    | .ok (n, after) => do
      have : after.length < rest.length := length_codePoint h
      let (chars, rest) ← stringRest after
      return (Char.ofNat n :: chars, rest)
  | '\\' :: c :: rest =>
    match plainEscape? c with
    | none => bad .invalidEscape rest
    | some plain => do
      let (chars, rest) ← stringRest rest
      return (plain :: chars, rest)
  | c :: rest =>
    if c.toNat < 0x20 then badNext .controlCharacter (c :: rest)
    else do
      let (chars, rest) ← stringRest rest
      return (c :: chars, rest)
termination_by s.length
decreasing_by all_goals (simp only [List.length_cons]; omega)

/-! ## Numbers -/

/-- The greatest number that is kept as an integer, and the greatest significand. -/
def wordLimit : Nat := 0xFFFFFFFFFFFFFFFF

/--
Reads digits into a significand as long as it stays within a word: the significand, how many digits
went into it, and the rest, which starts with a digit only if the word is full.
-/
def digits (significand : Nat) : List Char → Nat × Nat × List Char
  | [] => (significand, 0, [])
  | c :: rest =>
    let next := significand * 10 + (c.toNat - 0x30)
    if c.isDigit && next ≤ wordLimit then
      let (total, count, left) := digits next rest
      (total, count + 1, left)
    else (significand, 0, c :: rest)

/-- Scales a significand by powers of ten in floating-point arithmetic. -/
def scale (value : Float) (exponent : Int) : Option Float :=
  if 0 ≤ exponent then
    if value == 0 then some value
    else if 308 < exponent then none
    else
      let scaled := value * Float.ofScientific 1 false exponent.toNat
      if scaled.isInf then none else some scaled
  else
    -- No significand survives two divisions by the largest power.
    let down := (-exponent).toNat
    let lower (value : Float) (n : Nat) : Float := value / Float.ofScientific 1 false n
    if down ≤ 308 then some (lower value down)
    else if down ≤ 616 then some (lower (lower value 308) (down - 308))
    else some 0

def scaled (negative : Bool) (significand : Nat) (exponent : Int) (left : List Char) :
    Except Fault (Json × List Char) :=
  match scale significand.toUInt64.toFloat exponent with
  | some value => .ok (Json.float (if negative then -value else value), left)
  | none => bad .numberOutOfRange left

/-- The part of a number after its `e`. -/
def exponentPart (negative : Bool) (significand : Nat) (exponent : Int) (s : List Char) :
    Except Fault (Json × List Char) :=
  let (minus, body) := match s with
    | '+' :: rest => (false, rest)
    | '-' :: rest => (true, rest)
    | _ => (false, s)
  match body with
  | [] => bad .endInValue []
  | c :: rest =>
    if !c.isDigit then bad .invalidNumber rest
    else
      let written := (c :: rest).takeWhile Char.isDigit
      let left := rest.dropWhile Char.isDigit
      let power : Nat := written.foldl (fun n d => n * 10 + (d.toNat - 0x30)) 0
      if 0x80000000 ≤ power then
        if significand != 0 && !minus then bad .numberOutOfRange left
        else .ok (Json.float (if negative then -0.0 else 0.0), left)
      else scaled negative significand (if minus then exponent - power else exponent + power) left

/-- The part of a number after its point. Digits that no longer fit are passed over. -/
def fractionPart (negative : Bool) (significand : Nat) (exponent : Int) (s : List Char) :
    Except Fault (Json × List Char) :=
  let (total, count, rest) := digits significand s
  if !s.head?.any Char.isDigit then
    if s.isEmpty then badNext .endInValue s else badNext .invalidNumber s
  else
    let left := rest.dropWhile Char.isDigit
    match left with
    | 'e' :: after => exponentPart negative total (exponent - count) after
    | 'E' :: after => exponentPart negative total (exponent - count) after
    | _ => scaled negative total (exponent - count) left

/-- A number, its sign already read. What does not fit into a word becomes a float. -/
def readNumber (negative : Bool) (s : List Char) : Except Fault (Json × List Char) :=
  match s with
  | [] => bad .invalidNumber []
  | '0' :: c :: rest =>
    if c.isDigit then badNext .invalidNumber (c :: rest) else finish 0 0 (c :: rest) true
  | c :: rest =>
    if !c.isDigit then bad .invalidNumber rest
    else
      let (total, _, left) := digits 0 s
      let more := left.takeWhile Char.isDigit
      finish total more.length (left.drop more.length) more.isEmpty
where
  finish (significand overflow : Nat) (left : List Char) (whole : Bool) :
      Except Fault (Json × List Char) :=
    match left with
    | '.' :: after => fractionPart negative significand overflow after
    | 'e' :: after => exponentPart negative significand overflow after
    | 'E' :: after => exponentPart negative significand overflow after
    | _ =>
      if !whole then scaled negative significand overflow left
      else if !negative then .ok (.integer significand, left)
      else if significand = 0 || 0x8000000000000000 < significand then
        .ok (.float (-significand.toUInt64.toFloat), left)
      else .ok (.integer (-significand), left)

/-! ## Values of the wrong kind -/

/--
Reads as much of a value as it takes to say what it is. Of a list or an object that is its first
character, which stays unread.
-/
def glance (s : List Char) : Except Fault (Json × List Char) :=
  match s with
  | 'n' :: rest => do return (.null, ← word "ull".toList rest)
  | 't' :: rest => do return (.boolean true, ← word "rue".toList rest)
  | 'f' :: rest => do return (.boolean false, ← word "alse".toList rest)
  | '-' :: rest => readNumber true rest
  | '"' :: rest => do
    let (chars, rest) ← stringRest rest
    return (.string (String.ofList chars), rest)
  | '[' :: _ => .ok (.list [], s)
  | c :: _ =>
    if c.toNat = 0x7B then .ok (.object [], s)
    else if c.isDigit then readNumber false s
    else badNext .expectedValue s
  | [] => badNext .expectedValue []

/-- Reports that a value is not what was expected. -/
def refuse {α : Type} (expected : String) (s : List Char) : Except Fault α := do
  let (found, left) ← glance s
  .error ⟨.mismatch (found.mismatch expected), left, false⟩

/-! ## Values of a given kind -/

/-- The first character of a value, after the blanks before it. -/
def valueStart (s : List Char) : Except Fault (List Char) :=
  match skipSpace s with
  | [] => badNext .endInValue []
  | found => .ok found

def readBoolean (s : List Char) : Except Fault (Bool × List Char) := do
  match ← valueStart s with
  | 't' :: rest => return (true, ← word "rue".toList rest)
  | 'f' :: rest => return (false, ← word "alse".toList rest)
  | other => refuse "a boolean" other

def readText (expected : String) (s : List Char) : Except Fault (String × List Char) := do
  match ← valueStart s with
  | '"' :: rest =>
    let (chars, rest) ← stringRest rest
    return (String.ofList chars, rest)
  | other => refuse expected other

end Provision.Json
