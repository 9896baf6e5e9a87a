import Provision.Text.CaseTable

/-!
# Lower case

Full Unicode lower-casing. Every character has its own lower-case form except the capital sigma,
whose form depends on its neighbours: at the end of a word it is a final sigma.
-/

namespace Provision.Text

private def isIn (ranges : List (Nat × Nat)) (c : Char) : Bool :=
  ranges.any fun (first, last) => first ≤ c.toNat && c.toNat ≤ last

/-- The lower-case form of one character, its neighbours left out of account. -/
def lowerChar (c : Char) : List Char :=
  if c.toNat < 0x80 then [c.toLower]
  -- A capital I with a dot keeps its dot as a combining mark.
  else if c.toNat = 0x130 then ['i', Char.ofNat 0x307]
  else
    let run? := lowerRuns.find? fun (first, last, step, _) =>
      first ≤ c.toNat && c.toNat ≤ last && (c.toNat - first) % step == 0
    match run? with
    | some (_, _, _, offset) => [Char.ofNat (c.toNat + offset).toNat]
    | none => [c]

/-! ## The final sigma -/

def isCased (c : Char) : Bool := if c.toNat < 0x80 then c.isAlpha else isIn casedRanges c

/-- In ASCII the apostrophe, the stop, the colon, the circumflex and the grave accent. -/
def isIgnorable (c : Char) : Bool :=
  if c.toNat < 0x80 then [0x27, 0x2E, 0x3A, 0x5E, 0x60].contains c.toNat
  else isIn ignorableRanges c

/-- Whether the nearest character that is not ignorable has case. -/
def meetsCased (s : List Char) : Bool :=
  match s.dropWhile isIgnorable with
  | [] => false
  | c :: _ => isCased c

/-- The lower-case form of `c`, which follows `before` (nearest first) and precedes `after`. -/
def lowerBetween (before : List Char) (c : Char) (after : List Char) : List Char :=
  if c = 'Σ' then [if meetsCased before && !meetsCased after then 'ς' else 'σ'] else lowerChar c

/-- Lower-cases the text that follows `before`, which is read backwards. -/
def lowerAfter (before : List Char) : List Char → List Char
  | [] => []
  | c :: rest => lowerBetween before c rest ++ lowerAfter (c :: before) rest

def lower (s : List Char) : List Char := lowerAfter [] s

end Provision.Text
