import Provision.Text.Blank

/-!
# Flags

The eight flags of a unit. A flag has two spellings: its `token` in a document and on the command
line, read without regard to letter case, and its `label` in machine-readable output.
-/

namespace Provision

inductive Flag where
  | lead
  | trail
  | force
  | skip
  | virtual
  | preOnce
  | postOnce
  | bothOnce
deriving DecidableEq, Repr

namespace Flag

/-- All flags, in the order in which they are listed and shown. -/
def all : List Flag := [lead, trail, force, skip, virtual, preOnce, postOnce, bothOnce]

def token : Flag → String
  | lead => "lead"
  | trail => "trail"
  | force => "force"
  | skip => "skip"
  | virtual => "virtual"
  | preOnce => "pre_once"
  | postOnce => "post_once"
  | bothOnce => "once"

def label : Flag → String
  | preOnce => "pre_script_once"
  | postOnce => "post_script_once"
  | bothOnce => "both_scripts_once"
  | flag => flag.token

/-- The flag a document token names. Blanks around it and the case of ASCII letters do not count. -/
def ofToken? (token : List Char) : Option Flag :=
  let plain := (Text.trim token).map Char.toLower
  all.find? fun flag => flag.token.toList = plain

/-- The list of tokens that a message about an unknown one shows. -/
def validTokens : String := ", ".intercalate (all.map token)

/-! ## Order -/

def rank : Flag → Nat
  | lead => 0
  | trail => 1
  | force => 2
  | skip => 3
  | virtual => 4
  | preOnce => 5
  | postOnce => 6
  | bothOnce => 7

instance : LT Flag := ⟨fun a b => a.rank < b.rank⟩

instance : DecidableLT Flag := fun a b => inferInstanceAs (Decidable (a.rank < b.rank))

end Flag

end Provision
