import Provision.Flag

/-!
# Diagnostics

Why a document is refused. A diagnostic names the logical line at fault and the cause.
-/

namespace Provision.Document

inductive Cause where
  | colonInName (text : String)
  | emptyName
  | slashInName (name : String)
  | missingColon
  | emptyDirective (key : String)
  | outsideUnit
  | missingBlock (unit : String)
  | unknownDirective (unit key : String)
  | unknownFlag (unit token : String)
  | duplicateFlag (unit : String) (flag : Flag)
  | conflictingFlags (unit : String) (first second : Flag)
  | duplicateHost (unit pattern : String)
  | duplicateDirective (unit key : String)
  | repoSourceConflict (unit : String)
  | malformedSource (unit : String)
  | duplicateUnit (name : String) (firstLine : Nat)
deriving DecidableEq

def Cause.message : Cause → String
  | colonInName text => s!"unit name must not contain ':' (directives must be indented): {text}"
  | emptyName => "empty unit name"
  | slashInName name => s!"unit name must not contain '/': {name}"
  | missingColon => "indented line is not a `key: value` directive"
  | emptyDirective key => s!"directive `{key}` has no value"
  | outsideUnit =>
    "directive outside of a unit block (unit lines open a block with a trailing ':')"
  | missingBlock unit => s!"unit '{unit}' opens a directive block but no directive follows"
  | unknownDirective unit key => s!"unit '{unit}': unknown directive `{key}`"
  | unknownFlag unit token =>
    s!"unit '{unit}': unknown flag `{token}` (valid: {Flag.validTokens})"
  | duplicateFlag unit flag => s!"unit '{unit}': flag `{flag.token}` given more than once"
  | conflictingFlags unit first second =>
    s!"unit '{unit}': flags `{first.token}` and `{second.token}` are mutually exclusive"
  | duplicateHost unit pattern => s!"unit '{unit}': host pattern `{pattern}` given more than once"
  | duplicateDirective unit key => s!"unit '{unit}': directive `{key}` given more than once"
  | repoSourceConflict unit =>
    s!"unit '{unit}': `repo` and `source` directives cannot be combined"
  | malformedSource unit => s!"unit '{unit}': `source` must be `<file name> <content>`"
  | duplicateUnit name firstLine =>
    s!"duplicate unit '{name}' (first declared on line {firstLine})"

structure Diagnostic where
  line : Nat
  cause : Cause
deriving DecidableEq

def Diagnostic.message (d : Diagnostic) : String := s!"line {d.line}: {d.cause.message}"

end Provision.Document
