import Provision.Text.Blank
import Provision.Text.Piece

/-!
# Logical lines

A document is read by logical lines. A comment runs from a `#` outside quotes to the end of its
physical line, blanks at the end of a line do not count, and a backslash at its end joins it with
the next one by a newline. A logical line carries the number of its first physical line.
-/

namespace Provision.Document

open Text

structure Line where
  number : Nat
  text : List Char
deriving DecidableEq

/-! ## Comments -/

def isQuote (c : Char) : Bool := c = '"' || c = '\''

/-- The quote that is open after `c`: only the character that opened a span closes it. -/
def quoteAfter (opened : Option Char) (c : Char) : Option Char :=
  match opened with
  | none => if isQuote c then some c else none
  | some quote => if c = quote then none else some quote

/-- The text before the first `#` outside quotes, when the quote `opened` is open at its start. -/
def uncommentFrom (opened : Option Char) : List Char → List Char
  | [] => []
  | c :: rest =>
    if opened.isNone && c = '#' then [] else c :: uncommentFrom (quoteAfter opened c) rest

/-- The line without its comment. A quote that is never closed reaches to the end of the line. -/
def uncomment (line : List Char) : List Char := uncommentFrom none line

/-! ## Continuation -/

/-- The line without the single backslash that continues it. Two backslashes do not. -/
def continued? (line : List Char) : Option (List Char) :=
  match line.reverse with
  | '\\' :: '\\' :: _ => none
  | '\\' :: before => some before.reverse
  | _ => none

/-- What a physical line contributes: no comment, no blanks at its end. -/
def clean (raw : List Char) : List Char := trimEnd (uncomment raw)

/-- Joins physical lines, of which `pending` has been begun. The end of the text closes a line. -/
def joinLines (pending : Option Line) : List (List Char × Nat) → List Line
  | [] => (pending.map fun line => { line with text := trimEnd line.text }).toList
  | (raw, number) :: rest =>
    let line := pending.getD ⟨number, []⟩
    match continued? (clean raw) with
    | some part => joinLines (some { line with text := line.text ++ part ++ ['\n'] }) rest
    | none => { line with text := line.text ++ clean raw } :: joinLines none rest

def logicalLines (text : List Char) : List Line :=
  joinLines none ((physicalLines text).zipIdx 1)

/-! ## Kinds of lines -/

namespace Line

def isBlank (line : Line) : Bool := line.text.all Text.isBlank

/-- A line that begins with a blank belongs to the unit above it. -/
def isIndented (line : Line) : Bool := line.text.head?.any Text.isBlank

end Line

end Provision.Document
