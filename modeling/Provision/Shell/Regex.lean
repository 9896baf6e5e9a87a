import Provision.Shell.Pattern

/-!
# Regular expressions

Extended regular expressions for the operator `=~`. A match begins as early as it can and is then
as long as it can be; the texts of its groups are kept.
-/

namespace Provision.Shell

inductive Regex where
  | char (c : Char)
  | any
  | set (negated : Bool) (members : List Member)
  | start
  | finish
  | group (index : Nat) (body : Regex)
  | sequence (items : List Regex)
  | choice (items : List Regex)
  | repeated (least : Nat) (most? : Option Nat) (body : Regex)

namespace Regex

/-! ## Reading -/

/-- The bounds between braces, of which the opening one has been passed. -/
def bounds? (s : List Marked) : Option (Nat × Option Nat × List Marked) :=
  let number (s : List Marked) : Option Nat × List Marked :=
    let digits := s.takeWhile fun m => m.1.isDigit
    let value := digits.foldl (fun n m => n * 10 + (m.1.toNat - 0x30)) 0
    (if digits.isEmpty then none else some value, s.drop digits.length)
  match number s with
  | (some least, ('\x7d', _) :: rest) => some (least, some least, rest)
  | (least?, (',', _) :: rest) =>
    match number rest with
    | (most?, ('\x7d', _) :: rest) => some (least?.getD 0, most?, rest)
    | _ => none
  | _ => none

/-- How often what has been read may stand. -/
def repetition? (s : List Marked) : Option (Nat × Option Nat × List Marked) :=
  match s with
  | ('*', false) :: rest => some (0, none, rest)
  | ('+', false) :: rest => some (1, none, rest)
  | ('?', false) :: rest => some (0, some 1, rest)
  | ('\x7b', false) :: rest => bounds? rest
  | _ => none

/-- The state of reading: the alternatives and items so far, and how many groups have begun. -/
structure Draft where
  choices : List Regex := []
  items : List Regex := []
  groups : Nat := 0

def Draft.add (draft : Draft) (item : Regex) : Draft := { draft with items := item :: draft.items }

def Draft.whole (draft : Draft) : Regex :=
  let last := sequence draft.items.reverse
  if draft.choices.isEmpty then last else choice (draft.choices.reverse ++ [last])

/-- Reads an expression up to its end or a closing parenthesis; none if it is malformed. -/
def read? : Nat → Draft → List Marked → Option (Draft × List Marked)
  | 0, _, _ => none
  | _, draft, [] => some (draft, [])
  | limit + 1, draft, (c, isQuoted) :: rest =>
    let repeated? : Option (Draft × List Marked) :=
      match repetition? ((c, isQuoted) :: rest), draft.items with
      | some (least, most?, after), item :: items =>
        some ({ draft with items := .repeated least most? item :: items }, after)
      | _, _ => none
    match repeated? with
    | some (draft, after) => read? limit draft after
    | none =>
      if isQuoted then read? limit (draft.add (.char c)) rest
      else
        match c with
        | '.' => read? limit (draft.add .any) rest
        | '^' => read? limit (draft.add .start) rest
        | '$' => read? limit (draft.add .finish) rest
        | '|' =>
          let choices := sequence draft.items.reverse :: draft.choices
          read? limit { draft with choices, items := [] } rest
        | '(' =>
          match read? limit { groups := draft.groups + 1 } rest with
          | some (inner, (')', false) :: after) =>
            let group := Regex.group (draft.groups + 1) inner.whole
            read? limit { draft.add group with groups := inner.groups } after
          | _ => none
        | ')' => some (draft, (c, false) :: rest)
        | '[' =>
          match Pattern.set? ['^'] rest with
          | some (.set negated members, after) =>
            read? limit (draft.add (.set negated members)) after
          | _ => none
        | '\\' =>
          match rest with
          | (d, _) :: after => read? limit (draft.add (.char d)) after
          | [] => none
        | '*' | '+' | '?' => none
        | _ => read? limit (draft.add (.char c)) rest

def ofMarked? (s : List Marked) : Option Regex :=
  match read? (2 * s.length + 2) {} s with
  | some (draft, []) => some draft.whole
  | _ => none

/-! ## Matching -/

/-- A way to match: what is left, and the groups so far, latest first. -/
structure Way where
  rest : Bytes
  groups : List (Nat × Bytes) := []

def Way.beyond (way : Way) (other : Way) : Bool := way.rest.length < other.rest.length

/-- Tries one more repetition as long as that takes something. -/
def again (step : Way → List Way) : Nat → Nat → Way → List Way
  | 0, least, way => if least = 0 then [way] else []
  | most + 1, least, way =>
    let longer := (step way).flatMap fun next =>
      if next.rest.length = way.rest.length then (if least ≤ 1 then [next] else [])
      else again step most (least - 1) next
    if least = 0 then longer ++ [way] else longer

mutual

/-- All ways to match at the start of a text; `length` is that of the whole text. -/
def ways (length : Nat) (fold : Bool) : Regex → Way → List Way
  | .char c, way =>
    match way.rest with
    | d :: rest =>
      if Pattern.folded fold c = Pattern.folded fold d then [{ way with rest }] else []
    | [] => []
  | .any, way =>
    match way.rest with
    | _ :: rest => [{ way with rest }]
    | [] => []
  | .set negated members, way =>
    match way.rest with
    | d :: rest => if members.any (Member.holds d) != negated then [{ way with rest }] else []
    | [] => []
  | .start, way => if way.rest.length = length then [way] else []
  | .finish, way => if way.rest.isEmpty then [way] else []
  | .group index body, way =>
    (ways length fold body way).map fun after =>
      let taken := way.rest.take (way.rest.length - after.rest.length)
      { after with groups := (index, taken) :: after.groups }
  | .sequence items, way => waysOfAll length fold items [way]
  | .choice items, way => waysOfAny length fold items way
  | .repeated least most? body, way =>
    again (ways length fold body) (most?.getD (way.rest.length + least + 1)) least way

def waysOfAll (length : Nat) (fold : Bool) : List Regex → List Way → List Way
  | [], found => found
  | item :: rest, found => waysOfAll length fold rest (found.flatMap (ways length fold item))

def waysOfAny (length : Nat) (fold : Bool) : List Regex → Way → List Way
  | [], _ => []
  | item :: rest, way => ways length fold item way ++ waysOfAny length fold rest way

end

/-- How many groups an expression has. -/
def groupCount (s : List Marked) : Nat := s.countP fun m => m.1 = '(' && !m.2

/-- The text of the first match and those of its groups. -/
def find? (fold : Bool) (groups : Nat) (regex : Regex) (s : Bytes) : Option (List Bytes) :=
  (Pattern.suffixes s).findSome? fun rest =>
    let best? := (ways s.length fold regex { rest }).foldl (fun best? way =>
      match best? with
      | some best => if way.beyond best then some way else some best
      | none => some way) none
    best?.map fun best =>
      rest.take (rest.length - best.rest.length) ::
        (List.range groups).map fun i => (best.groups.lookup (i + 1)).getD []

end Regex

end Provision.Shell
