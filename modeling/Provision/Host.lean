import Provision.Text.Case
import Provision.Text.Piece

/-!
# Host patterns

A unit may be restricted to hosts by patterns. `!p` excludes the hosts that `p` matches, any other
pattern includes those it matches. A host is accepted if nothing excludes it and either something
includes it or there is nothing that includes; the order of the patterns does not matter.
-/

namespace Provision.Host

open Text

/-- `*.s` matches the names that end in `s`; every pattern matches the names that contain it. -/
def patternMatches (pattern hostname : List Char) : Bool :=
  (match pattern with
    | '*' :: '.' :: ending => ending.isSuffixOf hostname
    | _ => false) || holds pattern hostname

/-- The pattern after the mark of an exclusion. -/
def excluded? : List Char → Option (List Char)
  | '!' :: pattern => some pattern
  | _ => none

def accepts (patterns : List (List Char)) (hostname : List Char) : Bool :=
  let host := lower hostname
  let included := patterns.filter fun pattern => (excluded? pattern).isNone
  !(patterns.filterMap excluded?).any (patternMatches · host) &&
    (included.isEmpty || included.any (patternMatches · host))

end Provision.Host
