import Provision.Shell.State

/-!
# Options

The single letters behind a minus sign with which a builtin is called, and the operands behind them.
-/

namespace Provision.Shell

structure Options where
  /-- The letters, first one first, with the values of those that take one. -/
  given : List (Char × Bytes) := []
  operands : List Bytes

inductive OptionFault where
  | unknown (letter : Char)
  | valueless (letter : Char)

namespace Options

def has (options : Options) (letter : Char) : Bool := (options.given.lookup letter).isSome

/-- The last value that was given. -/
def value? (options : Options) (letter : Char) : Option Bytes :=
  options.given.reverse.lookup letter

/-- The letters of one word; a letter that takes a value takes the rest, or the next word. -/
def letters (plain valued : String) : Bytes → List Bytes →
    Except OptionFault (List (Char × Bytes) × List Bytes)
  | [], words => .ok ([], words)
  | letter :: rest, words =>
    if valued.toList.contains letter then
      if !rest.isEmpty then .ok ([(letter, rest)], words)
      else match words with
        | value :: words => .ok ([(letter, value)], words)
        | [] => .error (.valueless letter)
    else if plain.toList.contains letter then do
      let (more, words) ← letters plain valued rest words
      return ((letter, []) :: more, words)
    else .error (.unknown letter)

/-- Reads options up to the first word that is none, or up to two minus signs. -/
def read (plain valued : String) (words : List Bytes) : Except OptionFault Options :=
  let rec go : Nat → List Bytes → Except OptionFault Options
    | 0, words => .ok { operands := words }
    | limit + 1, words =>
      match words with
      | ['-', '-'] :: rest => .ok { operands := rest }
      | ('-' :: letter :: rest) :: more => do
        let (given, left) ← letters plain valued (letter :: rest) more
        let others ← go limit left
        return { others with given := given ++ others.given }
      | _ => .ok { operands := words }
  go (words.length + 1) words

end Options

namespace Act

/-- A message that begins with the name of a builtin. -/
def complainOf (name message : String) : Act Unit := complain s!"{name}: {message}"

/-- Says what is wrong with the options of a builtin. -/
def refuseOptions (name : String) (fault : OptionFault) : Act Unit := do
  match fault with
  | .unknown letter => complainOf name s!"-{letter}: invalid option"
  | .valueless letter => complainOf name s!"-{letter}: option requires an argument"
  finish 2

/-- Reads the options of a builtin and goes on with them. -/
def withOptions (name plain valued : String) (words : List Bytes) (body : Options → Act Unit) :
    Act Unit := do
  match Options.read plain valued words with
  | .ok options => body options
  | .error fault => refuseOptions name fault

/-- A word that is no name. -/
def refuseName (name : String) (word : Bytes) : Act Unit :=
  complainOf name s!"{backquote}{shown word}{apostrophe}: not a valid identifier"

end Act

end Provision.Shell
