import Provision.Shell.Brace
import Provision.Shell.Escape

/-!
# Formatted output

The format of `printf`: texts, integers and decimals, padded to a width. Decimals are computed with
a mantissa of 64 bits, and what is printed of them is exact.
-/

namespace Provision.Shell.Print

/-! ## Padding -/

structure Layout where
  left : Bool := false
  plus : Bool := false
  blank : Bool := false
  zeros : Bool := false
  alternate : Bool := false
  width : Nat := 0
  precision? : Option Nat := none

def Layout.pad (layout : Layout) (text : Bytes) : Bytes :=
  if layout.left then text.rightpad layout.width ' ' else text.leftpad layout.width ' '

/-- Pads a number; zeros go between its sign and its digits. -/
def Layout.padNumber (layout : Layout) (zeros : Bool) (sign digits : Bytes) : Bytes :=
  if zeros && !layout.left then sign ++ digits.leftpad (layout.width - sign.length) '0'
  else layout.pad (sign ++ digits)

def Layout.sign (layout : Layout) (negative : Bool) : Bytes :=
  if negative then ['-'] else if layout.plus then ['+'] else if layout.blank then [' '] else []

/-! ## Integers -/

/-- How an argument is read as a number: its value, and whether it is one as a whole. -/
structure Numeral where
  value : Int
  isWhole : Bool := true

def leading (base : Nat) (digit? : Char → Option Nat) (s : Bytes) : Nat × Bytes :=
  let (value, _, rest) := digitsValue base digit? s.length s
  (value, rest)

def decimalDigit? (c : Char) : Option Nat := if c.isDigit then some (c.toNat - 0x30) else none

/-- An integer with blanks before it, or a quote and the character that is meant by its number. -/
def numeral (s : Bytes) : Numeral :=
  match s with
  | [] => ⟨0, true⟩
  | '"' :: c :: _ => ⟨c.toNat, true⟩
  | '\x27' :: c :: _ => ⟨c.toNat, true⟩
  | _ =>
    let body := s.dropWhile fun c => isBlank c || c = '\n'
    let (negative, digits) := match body with
      | '-' :: rest => (true, rest)
      | '+' :: rest => (false, rest)
      | rest => (false, rest)
    let hex := match digits with
      | '0' :: x :: d :: _ => (x = 'x' || x = 'X') && (hexDigit? d).isSome
      | _ => false
    let (value, rest) :=
      if hex then leading 16 hexDigit? (digits.drop 2)
      else if digits.head? = some '0' then leading 8 octalDigit? digits
      else leading 10 decimalDigit? digits
    let isWhole := rest.isEmpty && rest.length != digits.length
    ⟨if negative then -(value : Int) else value, isWhole⟩

/-- The nearest integer of 64 bits. -/
def clamp (n : Int) : Int :=
  let half : Int := (wordSize / 2 : Nat)
  if n < -half then -half else if n < half then n else half - 1

/-- The digits of a number, of which a zero has none if none are asked for. -/
def Layout.digits (layout : Layout) (base n : Nat) : Bytes :=
  if n = 0 && layout.precision? = some 0 then []
  else (Nat.toDigits base n).leftpad (layout.precision?.getD 0) '0'

def integer (layout : Layout) (n : Int) : Bytes :=
  let digits := layout.digits 10 n.natAbs
  layout.padNumber (layout.zeros && layout.precision?.isNone) (layout.sign (n < 0)) digits

def unsigned (layout : Layout) (letter : Char) (n : Int) : Bytes :=
  let value := (n % wordSize).toNat
  let base := if letter = 'o' then 8 else if letter = 'u' then 10 else 16
  let digits := layout.digits base value
  let digits := if letter = 'X' then digits.map Char.toUpper else digits
  let start : Bytes :=
    if !layout.alternate || value = 0 then []
    else if letter = 'o' then ['0']
    else if letter = 'u' then []
    else ['0', letter]
  layout.padNumber (layout.zeros && layout.precision?.isNone) start digits

/-! ## Decimals -/

/-- A fraction that is not negative, and its sign. -/
structure Decimal where
  negative : Bool
  numerator : Nat
  denominator : Nat := 1

/-- The quotient as an integer, a half to the even neighbour. -/
def roundDiv (n d : Nat) : Nat :=
  let q := n / d
  let r := n % d
  if d < 2 * r || (2 * r = d && q % 2 = 1) then q + 1 else q

/-- The nearest fraction with a mantissa of 64 bits. -/
def Decimal.rounded (x : Decimal) : Decimal :=
  if x.numerator = 0 then x
  else
    -- The shift that brings the quotient to 64 bits, or one of its neighbours.
    let size : Int := (x.numerator.log2 : Int) - x.denominator.log2
    let shift := 63 - size
    let scaled (shift : Int) : Nat × Nat :=
      (x.numerator * Nat.pow 2 shift.toNat, x.denominator * Nat.pow 2 (-shift).toNat)
    let (n, d) := scaled shift
    let shift := if n / d < wordSize / 2 then shift + 1 else shift
    let (n, d) := scaled shift
    let mantissa := roundDiv n d
    { x with
      numerator := mantissa * Nat.pow 2 (-shift).toNat
      denominator := Nat.pow 2 shift.toNat }

/-- Reads a decimal with an exponent; the flag says that it is one as a whole. -/
def readDecimal (s : Bytes) : Decimal × Bool :=
  let body := s.dropWhile fun c => isBlank c || c = '\n'
  let (negative, body) := match body with
    | '-' :: rest => (true, rest)
    | '+' :: rest => (false, rest)
    | rest => (false, rest)
  let whole := body.takeWhile Char.isDigit
  let rest := body.drop whole.length
  let (fraction, rest) := match rest with
    | '.' :: more =>
      let digits := more.takeWhile Char.isDigit
      (digits, more.drop digits.length)
    | _ => ([], rest)
  let digits := whole ++ fraction
  let value := numberOf digits
  let (exponent, rest) : Int × Bytes := match rest with
    | c :: more =>
      let (down, after) := match more with
        | '-' :: after => (true, after)
        | '+' :: after => (false, after)
        | after => (false, after)
      let power := after.takeWhile Char.isDigit
      if (c = 'e' || c = 'E') && !power.isEmpty then
        let n : Int := (numberOf power : Nat)
        (if down then -n else n, after.drop power.length)
      else (0, rest)
    | [] => (0, [])
  let scale : Int := exponent - fraction.length
  let exact : Decimal :=
    { negative
      numerator := value * Nat.pow 10 scale.toNat
      denominator := Nat.pow 10 (-scale).toNat }
  (exact.rounded, s.isEmpty || (!digits.isEmpty && rest.isEmpty))

/-- Digits with a point before the last `places`. -/
def pointed (alternate : Bool) (places n : Nat) : Bytes :=
  let digits := (decimalOf n).leftpad (places + 1) '0'
  let whole := digits.take (digits.length - places)
  if places = 0 then (if alternate then whole ++ ['.'] else whole)
  else whole ++ '.' :: digits.drop (digits.length - places)

def fixed (alternate : Bool) (places : Nat) (x : Decimal) : Bytes :=
  pointed alternate places (roundDiv (x.numerator * Nat.pow 10 places) x.denominator)

/-- The power of ten of the first digit if so many digits are kept, and these digits. -/
def significant (count : Nat) (x : Decimal) : Int × Nat :=
  if x.numerator = 0 then (0, 0)
  else
    let atPower (power : Int) : Nat :=
      let shift : Int := count - 1 - power
      roundDiv (x.numerator * Nat.pow 10 shift.toNat) (x.denominator * Nat.pow 10 (-shift).toNat)
    let size : Int := (x.numerator.log2 : Int) - x.denominator.log2
    -- One of the powers near the binary estimate gives as many digits as are asked for.
    let guess := size * 30103 / 100000
    let powers := [guess - 1, guess, guess + 1, guess + 2]
    let fits (power : Int) : Bool :=
      Nat.pow 10 (count - 1) ≤ atPower power && atPower power < Nat.pow 10 count
    match powers.find? fits with
    | some power => (power, atPower power)
    | none => (guess, atPower guess)

def exponentText (power : Int) : Bytes :=
  'e' :: (if power < 0 then '-' else '+') :: (decimalOf power.natAbs).leftpad 2 '0'

def scientific (alternate : Bool) (places : Nat) (x : Decimal) : Bytes :=
  let (power, digits) := significant (places + 1) x
  pointed alternate places digits ++ exponentText power

private def trimZeros (s : Bytes) : Bytes :=
  if s.contains '.' then
    let kept := (s.reverse.dropWhile (· = '0')).reverse
    if kept.getLast? = some '.' then kept.dropLast else kept
  else s

def general (alternate : Bool) (precision : Nat) (x : Decimal) : Bytes :=
  let count := max precision 1
  let (power, digits) := significant count x
  let trim := if alternate then id else trimZeros
  if power < -4 || count ≤ power then
    trim (pointed alternate (count - 1) digits) ++ exponentText power
  else trim (fixed alternate (count - 1 - power).toNat x)

def decimal (layout : Layout) (letter : Char) (x : Decimal) : Bytes :=
  let precision := layout.precision?.getD 6
  let body := match letter.toLower with
    | 'e' => scientific layout.alternate precision x
    | 'g' => general layout.alternate precision x
    | _ => fixed layout.alternate precision x
  let body := if letter.isUpper then body.map Char.toUpper else body
  layout.padNumber layout.zeros (layout.sign x.negative) body

/-! ## Formats -/

/-- What has been printed, what was wrong, and the arguments that are left. -/
structure Progress where
  output : List Bytes := []
  complaints : List String := []
  arguments : List Bytes
  /-- The format has asked for an argument. -/
  asked : Bool := false
  stopped : Bool := false

namespace Progress

def put (progress : Progress) (text : Bytes) : Progress :=
  { progress with output := text :: progress.output }

def complain (progress : Progress) (message : String) : Progress :=
  { progress with complaints := progress.complaints ++ [message] }

/-- The next argument; a missing one is empty. -/
def next (progress : Progress) : Bytes × Progress :=
  (progress.arguments.headD [],
    { progress with arguments := progress.arguments.drop 1, asked := true })

/-- What is wrong with a text that is no number. -/
def problem (text : Bytes) : String :=
  match text with
  | '0' :: c :: _ =>
    if c.isDigit then "invalid octal number"
    else if c = 'x' then "invalid hex number" else "invalid number"
  | _ => "invalid number"

def nextInteger (progress : Progress) (shown : Bytes → String) : Int × Progress :=
  let (text, progress) := progress.next
  let numeral := numeral text
  let progress := if numeral.isWhole then progress
    else progress.complain s!"{shown text}: {problem text}"
  (clamp numeral.value, progress)

end Progress

/-- The flags, the width and the precision behind a percent sign, and what follows them. -/
def layout (progress : Progress) (shown : Bytes → String) (s : Bytes) :
    Layout × Progress × Bytes :=
  let flags := s.takeWhile fun c => "-+ 0#\x27".toList.contains c
  let rest := s.drop flags.length
  let number (progress : Progress) (rest : Bytes) : Option Int × Progress × Bytes :=
    match rest with
    | '*' :: after =>
      let (n, progress) := progress.nextInteger shown
      (some n, progress, after)
    | _ =>
      let digits := rest.takeWhile Char.isDigit
      let n : Nat := numberOf digits
      (if digits.isEmpty then none else some n, progress, rest.drop digits.length)
  let (width?, progress, rest) := number progress rest
  let (precision?, progress, rest) := match rest with
    | '.' :: after =>
      let (n?, progress, rest) := number progress after
      ((if n?.any (· < 0) then none else some (n?.getD 0).toNat), progress, rest)
    | _ => (none, progress, rest)
  let width := width?.getD 0
  ({ left := flags.contains '-' || width < 0
     plus := flags.contains '+'
     blank := flags.contains ' '
     zeros := flags.contains '0'
     alternate := flags.contains '#'
     width := width.natAbs
     precision? }, progress, rest.dropWhile fun c => "hjlLtzq".toList.contains c && c != 'q')

private def cutTo (layout : Layout) (text : Bytes) : Bytes :=
  match layout.precision? with
  | some n => text.take n
  | none => text

/-- One conversion by its letter; none if there is no such letter. -/
def convert? (shown : Bytes → String) (layout : Layout) (letter : Char) (progress : Progress) :
    Option Progress :=
  match letter with
  | 's' =>
    let (text, progress) := progress.next
    some (progress.put (layout.pad (cutTo layout text)))
  | 'c' =>
    let (text, progress) := progress.next
    some (progress.put (layout.pad (if text.isEmpty then [Char.ofNat 0] else text.take 1)))
  | 'b' =>
    let (text, progress) := progress.next
    let (text, stopped) := unescape .argument text
    some { progress.put (layout.pad (cutTo layout text)) with stopped }
  | 'q' =>
    let (text, progress) := progress.next
    some (progress.put (layout.pad (quote text)))
  | 'd' | 'i' =>
    let (n, progress) := progress.nextInteger shown
    some (progress.put (integer layout n))
  | 'o' | 'u' | 'x' | 'X' =>
    let (n, progress) := progress.nextInteger shown
    some (progress.put (unsigned layout letter n))
  | 'e' | 'E' | 'f' | 'F' | 'g' | 'G' =>
    let (text, progress) := progress.next
    let (x, isWhole) := readDecimal text
    let progress := if isWhole then progress
      else progress.complain s!"{shown text}: {Progress.problem text}"
    some (progress.put (decimal layout letter x))
  | _ => none

/-- Follows a format once. -/
def once (shown : Bytes → String) : Nat → Bytes → Progress → Progress
  | 0, _, progress => progress
  | _, [], progress => progress
  | limit + 1, '\\' :: c :: rest, progress =>
    match escapeAt .format c rest with
    | some (text, after) => once shown limit after (progress.put text)
    | none => progress
  | limit + 1, '%' :: '%' :: rest, progress => once shown limit rest (progress.put ['%'])
  | limit + 1, '%' :: rest, progress =>
    let (layout, progress, rest) := layout progress shown rest
    match rest with
    | [] => { progress.complain "missing format character" with stopped := true }
    | letter :: after =>
      match convert? shown layout letter progress with
      | some progress => if progress.stopped then progress else once shown limit after progress
      | none =>
        let name := String.ofList [letter]
        { progress.complain s!"{Char.ofNat 0x60}{name}{apostrophe}: invalid format character" with
          stopped := true }
  | limit + 1, c :: rest, progress =>
    let run := c :: rest.takeWhile fun d => d != '%' && d != '\\'
    once shown limit ((c :: rest).drop run.length) (progress.put run)

/-- Follows a format until all arguments have been printed. -/
def format (shown : Bytes → String) (text : Bytes) (arguments : List Bytes) : Bytes × List String :=
  let rec go : Nat → Progress → Progress
    | 0, progress => progress
    | limit + 1, progress =>
      let after := once shown (text.length + 1) text { progress with asked := false }
      if after.stopped || !after.asked || after.arguments.isEmpty then after else go limit after
  let done := go (arguments.length + 1) { arguments }
  (done.output.reverse.flatten, done.complaints)

end Provision.Shell.Print
