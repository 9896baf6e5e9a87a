import Provision.Shell.Pattern
import Provision.Shell.State

/-!
# Fields

What an expansion yields is split into fields at the separators, and a field that is a pattern
becomes the names of the files that match it. Only characters that come out of an expansion separate
fields, and only characters that are not quoted belong to a pattern.
-/

namespace Provision.Shell

inductive Origin where
  | literal
  | quoted
  | expanded
deriving DecidableEq

/-- A piece of an expanded word. -/
inductive Piece where
  | char (c : Char) (origin : Origin)
  /-- An empty text between quotes, which makes a field even where nothing else does. -/
  | mark
  /-- The end of an element of a list; `joint` stands there if the list becomes one text. -/
  | cut (joint : Bytes)

namespace Piece

def ofText (origin : Origin) (text : Bytes) : List Piece := text.map fun c => .char c origin

/-- The pieces as one text. -/
def text (pieces : List Piece) : Bytes :=
  pieces.flatMap fun piece =>
    match piece with
    | .char c _ => [c]
    | .mark => []
    | .cut joint => joint

/-- The pieces as one text in which quoted characters are known. -/
def marked (pieces : List Piece) : List Marked :=
  pieces.flatMap fun piece =>
    match piece with
    | .char c origin => [(c, origin == .quoted)]
    | .mark => []
    | .cut joint => joint.map fun c => (c, false)

/-! ## Splitting -/

/-- The fields so far, latest first, and the one that is being filled. -/
structure Splitter where
  done : List (List Marked) := []
  current : List Marked := []
  present : Bool := false
  /-- The last field ended at a blank, which a separator may still follow. -/
  afterBlank : Bool := false

namespace Splitter

def finish (splitter : Splitter) : Splitter :=
  { done := splitter.current.reverse :: splitter.done }

def step (separators : Bytes) (splitter : Splitter) : Piece → Splitter
  | .mark => { splitter with present := true, afterBlank := false }
  | .cut _ => if splitter.present then splitter.finish else { splitter with afterBlank := false }
  | .char c origin =>
    if origin = .expanded && separators.contains c then
      if isBlank c || c = '\n' then
        if splitter.present then { splitter.finish with afterBlank := true } else splitter
      else if splitter.present then splitter.finish
      else if splitter.afterBlank then { splitter with afterBlank := false }
      else splitter.finish
    else
      { splitter with
        current := (c, origin == .quoted) :: splitter.current
        present := true
        afterBlank := false }

def fields (splitter : Splitter) : List (List Marked) :=
  (if splitter.present then splitter.finish else splitter).done.reverse

end Splitter

def split (separators : Bytes) (pieces : List Piece) : List (List Marked) :=
  (pieces.foldl (Splitter.step separators) {}).fields

end Piece

/-! ## File names -/

def plainText (field : List Marked) : Bytes := field.map (·.1)

/-- Some character asks for a match. -/
def isMagic (groups : Bool) (field : List Marked) : Bool :=
  let rec go : List Marked → Bool
    | [] => false
    | (c, isQuoted) :: rest =>
      let opens := groups && (Pattern.often? c).isSome && rest.head? = some ('(', false)
      let closes := rest.any fun m => m.1 = ']' && !m.2
      (!isQuoted && (c = '*' || c = '?' || (c = '[' && closes) || opens)) || go rest
  go field

/-- The parts of a field between slashes. -/
def splitSlashes : List Marked → List (List Marked)
  | [] => [[]]
  | (c, isQuoted) :: rest =>
    if c = '/' then [] :: splitSlashes rest
    else match splitSlashes rest with
      | first :: others => ((c, isQuoted) :: first) :: others
      | [] => [[(c, isQuoted)]]

namespace State

/-- The names in a directory that match a pattern. Hidden files want their dot to be written. -/
def matching (state : State) (directory : Location) (pattern : List Marked) : List Bytes :=
  let groups := state.hasExtra "extglob"
  let read := Pattern.ofMarked groups pattern
  let dotted := pattern.head?.any fun m => m.1 = '.'
  let names := (state.files.namesIn directory).map bytesOfString
  names.filter fun name =>
    (name.head? != some '.' || dotted || state.hasExtra "dotglob") &&
      Pattern.isMatch (state.hasExtra "nocaseglob") read name

/-- The directories below one that can be reached by names that are not hidden, and their texts. -/
def descendants (state : State) : Nat → Bytes × Location → List (Bytes × Location)
  | 0, _ => []
  | limit + 1, (text, here) =>
    (state.matching here [('*', false)]).flatMap fun name =>
      let there := here ++ [shown name]
      if state.files.at? there matches some .directory then
        let inner := (text ++ name ++ ['/'], there)
        inner :: descendants state limit inner
      else []

/-- The paths that match the parts of a path, with the text that leads to each. -/
def walk (state : State) : List (List Marked) → Bytes × Location → List Bytes
  | [], (text, _) => [text]
  | part :: rest, (text, here) =>
    let isLast := rest.isEmpty
    let follow (name : Bytes) : List Bytes :=
      match state.files.enter here (shown name) with
      | .ok there =>
        if isLast then [text ++ name] else walk state rest (text ++ name ++ ['/'], there)
      | .error .notDirectory => if isLast then [text ++ name] else []
      | .error _ => []
    if part.isEmpty then
      if !isLast then walk state rest (text ++ ['/'], here)
      else if text.isEmpty then [] else [text]
    else if part = [('*', false), ('*', false)] && state.hasExtra "globstar" then
      let all := (text, here) :: state.descendants state.files.nodes.length (text, here)
      if isLast then
        let start := if text.isEmpty then [] else [text]
        start ++ all.flatMap fun (text, here) =>
          (state.matching here [('*', false)]).map fun name => text ++ name
      else all.flatMap (walk state rest)
    else if isMagic (state.hasExtra "extglob") part then
      (state.matching here part).flatMap follow
    else follow (plainText part)

/-- The files that match a field. -/
def paths (state : State) (field : List Marked) : List Bytes :=
  let found := match splitSlashes field with
    | [] :: rest => state.walk rest (['/'], [])
    | parts => state.walk parts ([], state.files.cwd)
  found.mergeSort inOrder

/-- The words that a field stands for; none if a match was demanded and there is none. -/
def wordsOf? (state : State) (field : List Marked) : Option (List Bytes) :=
  if state.has "noglob" || !isMagic (state.hasExtra "extglob") field then some [plainText field]
  else match state.paths field with
    | [] =>
      if state.hasExtra "failglob" then none
      else if state.hasExtra "nullglob" then some []
      else some [plainText field]
    | found => some found

end State

end Provision.Shell
