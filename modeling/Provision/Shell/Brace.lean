import Provision.Shell.Syntax

/-!
# Braces

Before anything else is done to a word, alternatives and sequences between braces make several words
of it. Only braces that are not quoted count, so a word is taken apart into its characters and the
parts that are opaque here.
-/

namespace Provision.Shell.Brace

/-- A character that is not quoted, or a part that is left alone. -/
inductive Atom where
  | char (c : Char)
  | part (part : Part)

namespace Atom

def char? : Atom → Option Char
  | char c => some c
  | part _ => none

def isChar (atom : Atom) (c : Char) : Bool := atom.char? == some c

end Atom

def atoms (parts : List Part) : List Atom :=
  parts.flatMap fun part =>
    match part with
    | .plain text => text.map Atom.char
    | other => [.part other]

def parts (atoms : List Atom) : List Part :=
  atoms.foldr (fun atom later =>
    match atom, later with
    | .char c, .plain text :: rest => .plain (c :: text) :: rest
    | .char c, _ => .plain [c] :: later
    | .part part, _ => part :: later) []

/-! ## Alternatives -/

/-- The texts between commas up to the closing brace, and what follows it. -/
def alternatives? (depth : Nat) (current : List Atom) :
    List Atom → Option (List (List Atom) × List Atom)
  | [] => none
  | atom :: rest =>
    if atom.isChar '\x7d' then
      match depth with
      | 0 => some ([current.reverse], rest)
      | depth + 1 => alternatives? depth (atom :: current) rest
    else if atom.isChar ',' && depth = 0 then
      (alternatives? depth [] rest).map fun (others, after) => (current.reverse :: others, after)
    else alternatives? (if atom.isChar '\x7b' then depth + 1 else depth) (atom :: current) rest

/-! ## Sequences -/

def integer? (s : Bytes) : Option Int :=
  let digits := match s with
    | '-' :: rest => rest
    | '+' :: rest => rest
    | _ => s
  if digits.isEmpty || !digits.all Char.isDigit then none
  else
    let value : Int := (numberOf digits : Nat)
    some (if s.head? = some '-' then -value else value)

/-- The numbers from one to another in steps, the last one left out that would go beyond. -/
def range (first last step : Int) : List Int :=
  let step : Int := if step = 0 then 1 else (step.natAbs : Int)
  let count := ((last - first).natAbs / step.natAbs) + 1
  (List.range count).map fun (i : Nat) =>
    if first ≤ last then first + step * i else first - step * i

/-- A number with zeros in front, as wide as `width` with its sign. -/
def padded (width : Nat) (n : Int) : Bytes :=
  let digits := decimalOf n.natAbs
  if n < 0 then '-' :: digits.leftpad (width - 1) '0' else digits.leftpad width '0'

/-- A bound that is written with zeros in front asks for numbers as wide as itself. -/
def width (s : Bytes) : Nat :=
  match s with
  | '-' :: '0' :: _ :: _ => s.length
  | '0' :: _ :: _ => s.length
  | _ => 0

def splitDots : Bytes → List Bytes
  | '.' :: '.' :: rest => [] :: splitDots rest
  | c :: rest =>
    match splitDots rest with
    | first :: others => (c :: first) :: others
    | [] => [[c]]
  | [] => [[]]

/-- The words that a sequence such as `1..5` stands for. -/
def sequence? (text : Bytes) : Option (List Bytes) :=
  let build (first last : Bytes) (step : Int) : Option (List Bytes) :=
    match integer? first, integer? last with
    | some a, some b =>
      let width := max (width first) (width last)
      let width := if width = 0 then 0 else max first.length last.length
      some ((range a b step).map (padded width))
    | _, _ =>
      match first, last with
      | [a], [b] =>
        if a.isAlpha && b.isAlpha then
          some ((range (a.toNat : Nat) (b.toNat : Nat) step).map fun n => [Char.ofNat n.toNat])
        else none
      | _, _ => none
  match splitDots text with
  | [first, last] => build first last 1
  | [first, last, step] => (integer? step).bind (build first last)
  | _ => none

/-! ## Expansion -/

/-- What stands before the first opening brace, and what follows it. -/
def opened? : List Atom → Option (List Atom × List Atom)
  | [] => none
  | atom :: rest =>
    if atom.isChar '\x7b' then some ([], rest)
    else (opened? rest).map fun (before, after) => (atom :: before, after)

/-- All words that a word stands for. -/
def expandAtoms : Nat → List Atom → List (List Atom)
  | 0, word => [word]
  | limit + 1, word =>
    match opened? word with
    | none => [word]
    | some (before, inner) =>
      let literal : List (List Atom) :=
        (expandAtoms limit inner).map fun tail => before ++ .char '\x7b' :: tail
      match alternatives? 0 [] inner with
      | none => literal
      | some ([only], after) =>
        match (only.mapM Atom.char?).bind sequence? with
        | some texts =>
          let tails := expandAtoms limit after
          texts.flatMap fun text => tails.map fun tail => before ++ text.map Atom.char ++ tail
        | none => literal
      | some (texts, after) =>
        let tails := expandAtoms limit after
        (texts.flatMap (expandAtoms limit)).flatMap fun text =>
          tails.map fun tail => before ++ text ++ tail

def expand (word : List Part) : List (List Part) :=
  let atoms := atoms word
  if atoms.any (·.isChar '\x7b') then (expandAtoms (atoms.length + 1) atoms).map parts else [word]

end Provision.Shell.Brace
