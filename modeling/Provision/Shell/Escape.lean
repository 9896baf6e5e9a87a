import Provision.Shell.Syntax
import Provision.Text.Escape

/-!
# Characters behind a backslash

Four places give a meaning to a backslash and the character behind it, and each has its own rules.
`quote` goes the other way: it writes a text so that a shell reads it as one word.
-/

namespace Provision.Shell

/-- A place where backslashes have a meaning of their own. -/
inductive Dialect where
  /-- Between `$'` and `'`. -/
  | quoted
  /-- What `echo` prints if it is asked to. -/
  | echoed
  /-- The format of `printf`. -/
  | format
  /-- An argument of `printf` for `%b`. -/
  | argument
deriving DecidableEq

namespace Dialect

/-- Up to four octal digits may follow a backslash and a zero. -/
def hasLongOctal : Dialect → Bool
  | echoed | argument => true
  | quoted | format => false

/-- The output stops at `\c`. -/
def stops : Dialect → Bool
  | echoed | argument => true
  | quoted | format => false

end Dialect

def octalDigit? (c : Char) : Option Nat :=
  if '0' ≤ c && c ≤ '7' then some (c.toNat - 0x30) else none

def hexDigit? (c : Char) : Option Nat :=
  if c.isDigit then some (c.toNat - 0x30)
  else if 'a' ≤ c && c ≤ 'f' then some (c.toNat - 0x61 + 10)
  else if 'A' ≤ c && c ≤ 'F' then some (c.toNat - 0x41 + 10)
  else none

/-- The number that up to `most` digits spell, how many they are, and what follows them. -/
def digitsValue (base : Nat) (digit? : Char → Option Nat) (most : Nat) (s : Bytes) :
    Nat × Nat × Bytes :=
  let digits := (s.take most).takeWhile fun c => (digit? c).isSome
  (digits.foldl (fun n c => n * base + (digit? c).getD 0) 0, digits.length, s.drop digits.length)

def byte (n : Nat) : Char := Char.ofNat (n % 256)

/-- A character by its code point. Outside ASCII its number is all that can be written. -/
def codePointBytes (n : Nat) : Bytes :=
  if n < 0x80 then [Char.ofNat n]
  else
    let digits := (Text.hexDigits n).map Char.toUpper
    if n < 0x10000 then '\\' :: 'u' :: digits.leftpad 4 '0' else '\\' :: 'U' :: digits.leftpad 8 '0'

/-- The byte that a single letter stands for. -/
def control? (c : Char) : Option Char :=
  match c with
  | 'a' => some (byte 7)
  | 'b' => some (byte 8)
  | 't' => some (byte 9)
  | 'n' => some (byte 10)
  | 'v' => some (byte 11)
  | 'f' => some (byte 12)
  | 'r' => some (byte 13)
  | 'e' | 'E' => some (byte 27)
  | '\\' => some '\\'
  | _ => none

/-- What stands behind a backslash, and the rest; none if the output stops here. -/
def escapeAt (dialect : Dialect) (c : Char) (rest : Bytes) : Option (Bytes × Bytes) :=
  match control? c with
  | some plain => some ([plain], rest)
  | none =>
    if c = apostrophe || c = '"' || c = '?' then
      some (if dialect = .echoed then ['\\', c] else [c], rest)
    else if c = 'x' then
      let braced := dialect = .quoted && rest.head? = some '\x7b'
      let (value, count, after) := digitsValue 16 hexDigit? 2 (if braced then rest.drop 1 else rest)
      if count = 0 then some (['\\', c], rest)
      else some ([byte value], if braced && after.head? = some '\x7d' then after.drop 1 else after)
    else if c = 'u' || c = 'U' then
      let (value, count, after) := digitsValue 16 hexDigit? (if c = 'u' then 4 else 8) rest
      if count = 0 then some (['\\', c], rest) else some (codePointBytes value, after)
    else if c = 'c' && dialect.stops then none
    else if c = 'c' && dialect = .quoted then
      match rest with
      | [] => some (['\\', c], [])
      | d :: after =>
        let after := if d = '\\' && after.head? = some '\\' then after.drop 1 else after
        some ([if d = '?' then byte 0x7F else byte (d.toUpper.toNat % 32)], after)
    else match octalDigit? c with
      | none => some (['\\', c], rest)
      | some first =>
        if dialect = .echoed && first != 0 then some (['\\', c], rest)
        else
          let most := if dialect.hasLongOctal && first = 0 then 3 else 2
          let (value, count, after) := digitsValue 8 octalDigit? most rest
          some ([byte (first * Nat.pow 8 count + value)], after)

/-- Reads a text with backslashes; the flag says that its output stops before its end. -/
def unescape (dialect : Dialect) (s : Bytes) : Bytes × Bool :=
  let rec go : Nat → Bytes → Bytes × Bool
    | 0, s => (s, false)
    | _, [] => ([], false)
    | limit + 1, '\\' :: c :: rest =>
      match escapeAt dialect c rest with
      | none => ([], true)
      | some (shown, after) =>
        let (more, stopped) := go limit after
        (shown ++ more, stopped)
    | limit + 1, c :: rest =>
      let (more, stopped) := go limit rest
      (c :: more, stopped)
  go s.length s

/-- A text between `$'` and `'`. It ends at a zero byte. -/
def ansi (s : Bytes) : Bytes := (unescape .quoted s).1.takeWhile fun c => c.toNat != 0

/-! ## Writing a word -/

def isPrintable (c : Char) : Bool := 0x20 ≤ c.toNat && c.toNat < 0x7F

/-- A byte between `$'` and `'`. -/
def ansiByte (c : Char) : Bytes :=
  match c.toNat with
  | 7 => ['\\', 'a']
  | 8 => ['\\', 'b']
  | 9 => ['\\', 't']
  | 10 => ['\\', 'n']
  | 11 => ['\\', 'v']
  | 12 => ['\\', 'f']
  | 13 => ['\\', 'r']
  | 27 => ['\\', 'E']
  | n =>
    if c = '\\' || c = apostrophe then ['\\', c]
    else if isPrintable c then [c]
    else '\\' :: (Nat.toDigits 8 n).leftpad 3 '0'

def ansiQuote (s : Bytes) : Bytes := '$' :: apostrophe :: s.flatMap ansiByte ++ [apostrophe]

/-- Between single quotes, which leave out every single quote of the text itself. -/
def singleQuote (s : Bytes) : Bytes :=
  let body := s.flatMap fun c =>
    if c = apostrophe then [apostrophe, '\\', apostrophe, apostrophe] else [c]
  apostrophe :: body ++ [apostrophe]

/-- Characters that a shell would not leave as they are. -/
def needsBackslash (c : Char) : Bool :=
  " \t\n!\"#$&()*,;<>?[\\]^\x7b|\x7d".toList.contains c || c = apostrophe || c = backquote

/-- A text as one word, with a backslash before each character that needs one. -/
def quote (s : Bytes) : Bytes :=
  if s.isEmpty then [apostrophe, apostrophe]
  else if s.any fun c => !isPrintable c then ansiQuote s
  else
    let mark (first : Bool) (c : Char) : Bytes :=
      if c = '#' || c = '~' then if first then ['\\', c] else [c]
      else if needsBackslash c then ['\\', c]
      else [c]
    mark true (s.headD ' ') ++ (s.drop 1).flatMap (mark false)

end Provision.Shell
