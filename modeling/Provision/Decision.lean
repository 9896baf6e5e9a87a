import Provision.Host
import Provision.Installable

/-!
# Decisions

Whether a unit is to be installed. The rules are tried in a fixed order and the first one that
applies decides; the packages that are installed are those of a snapshot taken before the run.
-/

namespace Provision

/-- The packages that were installed when the run began. -/
structure Snapshot where
  packages : List String := []

namespace Snapshot

def has (snapshot : Snapshot) (package : String) : Bool := snapshot.packages.contains package

end Snapshot

/-- What the command line asks for. The four lists are sorted sets. -/
structure Criteria where
  forceAll : Bool := false
  skipNames : List String := []
  skipFlags : List Flag := []
  onlyNames : List String := []
  onlyFlags : List Flag := []
deriving DecidableEq

inductive SkipCause where
  | alreadyInstalled
  | archiveInstalled (package : String)
  | flaggedSkip
  | skippedByName
  | skippedByFlag (flag : Flag)
  | notInOnlyNames
  | notInOnlyFlags
  | hostname
deriving DecidableEq

namespace SkipCause

def label : SkipCause → String
  | alreadyInstalled => "already_installed"
  | archiveInstalled _ => "archive_installed"
  | flaggedSkip => "flagged_skip"
  | skippedByName => "skipped_by_name"
  | skippedByFlag _ => "skipped_by_flag"
  | notInOnlyNames => "not_in_only_names"
  | notInOnlyFlags => "not_in_only_flags"
  | hostname => "hostname"

def message : SkipCause → String
  | alreadyInstalled => "already installed"
  | archiveInstalled package => s!"already installed as {package}"
  | flaggedSkip => "flagged skip"
  | skippedByName => "skipped by name"
  | skippedByFlag flag => s!"skipped by flag `{flag.token}`"
  | notInOnlyNames => "not selected by name"
  | notInOnlyFlags => "not selected by flag"
  | hostname => "hostname"

end SkipCause

inductive Decision where
  | install (forced : Bool)
  | skip (cause : SkipCause)
deriving DecidableEq

namespace Decision

def isSkip : Decision → Bool
  | skip _ => true
  | install _ => false

def isForced : Decision → Bool
  | install forced => forced
  | skip _ => false

def message : Decision → String
  | install true => "forcing"
  | install false => "selected"
  | skip cause => cause.message

end Decision

namespace Criteria

def judge (criteria : Criteria) (unit : Installable) (snapshot : Snapshot)
    (hostname : String) : Decision :=
  if criteria.forceAll || unit.has .force then .install true
  else if snapshot.has unit.package then .skip .alreadyInstalled
  else if unit.has .skip then .skip .flaggedSkip
  else if criteria.skipNames.contains unit.name then .skip .skippedByName
  else match unit.flags.find? criteria.skipFlags.contains with
  | some flag => .skip (.skippedByFlag flag)
  | none =>
    if !criteria.onlyNames.isEmpty && !criteria.onlyNames.contains unit.name then
      .skip .notInOnlyNames
    else if !criteria.onlyFlags.isEmpty && !unit.flags.any criteria.onlyFlags.contains then
      .skip .notInOnlyFlags
    else if !Host.accepts (unit.hosts.map String.toList) hostname.toList then .skip .hostname
    else .install false

end Criteria

end Provision
