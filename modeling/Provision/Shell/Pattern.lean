import Provision.Shell.Syntax

/-!
# Patterns

Patterns of file names, as they also serve in `case` and in expansions. A pattern is matched by
following all texts that may be left behind a part of it at once, so that no choice has to be taken
back; a text that is left is an end of the whole text and known by its length.
-/

namespace Provision.Shell

/-- A character, and whether it was quoted and so stands for itself. -/
abbrev Marked := Char × Bool

/-- A member of a set between brackets. -/
inductive Member where
  | range (first last : Char)
  | kind (name : Bytes)
deriving DecidableEq

/-- How often a group of alternatives may stand. -/
inductive Often where
  | once
  | optional
  | any
  | some
  /-- Something that is none of the alternatives. -/
  | not
deriving DecidableEq

def isOfKind (name : Bytes) (c : Char) : Bool :=
  match String.ofList name with
  | "alpha" => c.isAlpha
  | "digit" => c.isDigit
  | "alnum" => c.isAlphanum
  | "upper" => c.isUpper
  | "lower" => c.isLower
  | "space" => c = ' ' || (9 ≤ c.toNat && c.toNat ≤ 13)
  | "blank" => isBlank c
  | "punct" => 0x21 ≤ c.toNat && c.toNat < 0x7F && !c.isAlphanum
  | "print" => 0x20 ≤ c.toNat && c.toNat < 0x7F
  | "graph" => 0x20 < c.toNat && c.toNat < 0x7F
  | "cntrl" => c.toNat < 0x20 || c.toNat = 0x7F
  | "xdigit" => c.isDigit || ('a' ≤ c && c ≤ 'f') || ('A' ≤ c && c ≤ 'F')
  | "word" => isNameChar c
  | "ascii" => c.toNat < 0x80
  | _ => false

def Member.holds (c : Char) : Member → Bool
  | .range first last => first ≤ c && c ≤ last
  | .kind name => isOfKind name c

inductive Pattern where
  | char (c : Char)
  | any
  | star
  | set (negated : Bool) (members : List Member)
  | group (often : Often) (alternatives : List (List Pattern))

namespace Pattern

/-! ## Sets -/

/-- A class such as `[:digit:]` inside a set, of which the opening bracket has been passed. -/
def kind? : List Marked → Option (Bytes × List Marked)
  | (':', false) :: rest =>
    let name := (rest.takeWhile fun m => m.1.isAlpha).map (·.1)
    match rest.drop name.length with
    | (':', _) :: (']', _) :: after => some (name, after)
    | _ => none
  | _ => none

/-- The members of a set up to its closing bracket, which is a member if it comes first. -/
def members? (first : Bool) (limit : Nat) (s : List Marked) : Option (List Member × List Marked) :=
  match limit, s with
  | 0, _ => none
  | _, [] => none
  | limit + 1, (c, isQuoted) :: rest =>
    let more (member : Member) (rest : List Marked) : Option (List Member × List Marked) :=
      (members? false limit rest).map fun (members, after) => (member :: members, after)
    if c = ']' && !isQuoted && !first then some ([], rest)
    else
      let class? := if c = '[' && !isQuoted then kind? rest else none
      match class?, rest with
      | some (name, after), _ => more (.kind name) after
      | none, ('-', false) :: (d, dQuoted) :: after =>
        if d = ']' && !dQuoted then more (.range c c) rest else more (.range c d) after
      | none, _ => more (.range c c) rest

/-- A set, of which the opening bracket has been passed. One of the signs may negate it. -/
def set? (signs : Bytes) (s : List Marked) : Option (Pattern × List Marked) :=
  let (negated, s) := match s with
    | (c, false) :: rest => if signs.contains c then (true, rest) else (false, s)
    | _ => (false, s)
  (members? true (s.length + 1) s).map fun (members, rest) => (.set negated members, rest)

/-! ## Reading -/

def often? (c : Char) : Option Often :=
  match c with
  | '@' => some .once
  | '?' => some .optional
  | '*' => some .any
  | '+' => some .some
  | '!' => some .not
  | _ => none

/-- The alternatives of a group up to its closing parenthesis, as texts. -/
def alternatives? (depth : Nat) (current : List Marked) :
    List Marked → Option (List (List Marked) × List Marked)
  | [] => none
  | (c, isQuoted) :: rest =>
    if isQuoted then alternatives? depth ((c, true) :: current) rest
    else if c = ')' then
      match depth with
      | 0 => some ([current.reverse], rest)
      | depth + 1 => alternatives? depth ((c, false) :: current) rest
    else if c = '|' && depth = 0 then
      (alternatives? depth [] rest).map fun (others, after) => (current.reverse :: others, after)
    else alternatives? (if c = '(' then depth + 1 else depth) ((c, false) :: current) rest

/-- Reads a pattern; `groups` says whether there are groups of alternatives. -/
def read (groups : Bool) (limit : Nat) (s : List Marked) : List Pattern :=
  match limit, s with
  | 0, _ => []
  | _, [] => []
  | limit + 1, (c, true) :: rest => .char c :: read groups limit rest
  | limit + 1, (c, false) :: rest =>
    let group? := if !groups then none else
      match often? c, rest with
      | some often, ('(', false) :: inner =>
        (alternatives? 0 [] inner).map fun (texts, after) => (often, texts, after)
      | _, _ => none
    match group? with
    | some (often, texts, after) =>
      .group often (texts.map (read groups limit)) :: read groups limit after
    | none =>
      match c, rest with
      | '*', _ => .star :: read groups limit rest
      | '?', _ => .any :: read groups limit rest
      | '[', _ =>
        match set? ['!', '^'] rest with
        | some (found, after) => found :: read groups limit after
        | none => .char '[' :: read groups limit rest
      | '\\', (d, false) :: after => .char d :: read groups limit after
      | _, _ => .char c :: read groups limit rest

def ofMarked (groups : Bool) (s : List Marked) : List Pattern := read groups (s.length + 1) s

/-! ## Matching -/

/-- Texts that may be left, each length once, longest first. -/
def distinct (ends : List Bytes) : List Bytes :=
  let sorted := ends.mergeSort fun a b => b.length ≤ a.length
  sorted.foldr (fun s kept =>
    match kept with
    | next :: _ => if next.length = s.length then kept else s :: kept
    | [] => [s]) []

def suffixes : Bytes → List Bytes
  | [] => [[]]
  | c :: rest => (c :: rest) :: suffixes rest

/-- Lower case, where letters are compared without their case. -/
def folded (fold : Bool) (c : Char) : Char := if fold then c.toLower else c

/-- Adds what a step leaves to what was left before, until nothing new is left. -/
def closure (step : Bytes → List Bytes) : Nat → List Bytes → List Bytes
  | 0, found => found
  | limit + 1, found =>
    let more := distinct (found ++ found.flatMap step)
    if more.length = found.length then found else closure step limit more

mutual

/-- What may be left of a text behind a match of one part of a pattern. -/
def leaves (fold : Bool) : Pattern → Bytes → List Bytes
  | .char c, s =>
    match s with
    | d :: rest => if folded fold c = folded fold d then [rest] else []
    | [] => []
  | .any, s =>
    match s with
    | _ :: rest => [rest]
    | [] => []
  | .star, s => suffixes s
  | .set negated members, s =>
    match s with
    | d :: rest =>
      let holds := members.any (Member.holds d) ||
        (fold && (members.any (Member.holds d.toLower) || members.any (Member.holds d.toUpper)))
      if holds != negated then [rest] else []
    | [] => []
  | .group often alternatives, s =>
    match often with
    | .once => leavesOfAny fold alternatives s
    | .optional => distinct (s :: leavesOfAny fold alternatives s)
    | .any => closure (leavesOfAny fold alternatives) s.length [s]
    | .some => closure (leavesOfAny fold alternatives) s.length (leavesOfAny fold alternatives s)
    | .not =>
      let taken := leavesOfAny fold alternatives s
      (suffixes s).filter fun rest => !taken.any fun other => other.length = rest.length

def leavesOfAny (fold : Bool) : List (List Pattern) → Bytes → List Bytes
  | [], _ => []
  | first :: others, s => distinct (leavesOfAll fold first [s] ++ leavesOfAny fold others s)

/-- What may be left of some texts behind a match of a whole pattern. -/
def leavesOfAll (fold : Bool) : List Pattern → List Bytes → List Bytes
  | [], texts => texts
  | part :: rest, texts =>
    if texts.isEmpty then []
    else leavesOfAll fold rest (distinct (texts.flatMap (leaves fold part)))

end

/-- What may be left behind a match at the start of a text, longest first. -/
def remainders (fold : Bool) (pattern : List Pattern) (s : Bytes) : List Bytes :=
  leavesOfAll fold pattern [s]

def isMatch (fold : Bool) (pattern : List Pattern) (s : Bytes) : Bool :=
  (remainders fold pattern s).any (·.isEmpty)

/-! ## Parts of a text -/

/-- The text without a match at its start. -/
def trimStart (longest : Bool) (pattern : List Pattern) (s : Bytes) : Bytes :=
  let rests := remainders false pattern s
  ((if longest then rests.getLast? else rests.head?).getD s)

/-- The text without a match at its end. -/
def trimEnd (longest : Bool) (pattern : List Pattern) (s : Bytes) : Bytes :=
  let matching := (suffixes s).filter (isMatch false pattern)
  match if longest then matching.head? else matching.getLast? with
  | some suffix => s.take (s.length - suffix.length)
  | none => s

/-- The longest match at the start of a text, and what follows it. -/
def matchStart? (pattern : List Pattern) (s : Bytes) : Option (Bytes × Bytes) :=
  (remainders false pattern s).getLast?.map fun rest => (s.take (s.length - rest.length), rest)

/-- Puts something in the place of matches, the first one only or all. -/
def replace (all : Bool) (pattern : List Pattern) (replacement : Bytes → Bytes) (s : Bytes) :
    Bytes :=
  let rec go : Nat → Bytes → Bytes
    | 0, s => s
    | limit + 1, s =>
      let found? := (matchStart? pattern s).filter fun found => !found.1.isEmpty
      match found?, s with
      | some (found, rest), _ => replacement found ++ (if all then go limit rest else rest)
      | none, c :: rest => c :: go limit rest
      | none, [] => []
  go (s.length + 1) s

/-- Puts something in the place of a match at the start or at the end. -/
def replaceStart (pattern : List Pattern) (replacement : Bytes → Bytes) (s : Bytes) : Bytes :=
  match matchStart? pattern s with
  | some (found, rest) => replacement found ++ rest
  | none => s

def replaceEnd (pattern : List Pattern) (replacement : Bytes → Bytes) (s : Bytes) : Bytes :=
  let kept := trimEnd true pattern s
  if isMatch false pattern (s.drop kept.length) then kept ++ replacement (s.drop kept.length) else s

end Pattern

end Provision.Shell
