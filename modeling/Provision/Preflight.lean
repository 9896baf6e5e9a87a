/-!
# Preflight

What is checked before anything on the host is touched: the rights of the user and the programs
that no unit can do without.
-/

namespace Provision

structure Preflight where
  missing : List String
  isRoot : Bool
  rootRequired : Bool

namespace Preflight

def requiredPrograms : List String := ["bash", "dpkg-query", "apt-get"]

/-- The package that brings a program. -/
def packageOf (program : String) : String :=
  match program with
  | "bash" => "bash"
  | "dpkg-query" => "dpkg"
  | "dpkg-deb" => "dpkg"
  | "apt-get" => "apt"
  | "add-apt-repository" => "software-properties-common"
  | _ => "unknown"

def passes (check : Preflight) : Bool :=
  check.missing.isEmpty && (check.isRoot || !check.rootRequired)

/-- A line for every fault; none if the check passes. -/
def describe (check : Preflight) : String :=
  let root := if check.rootRequired && !check.isRoot then
      ["Root privileges required (run with sudo, or set PACKLIST_SKIP_ROOT_CHECK=1)"]
    else []
  let programs := check.missing.map fun program =>
    s!"Missing required binary: {program} (install: apt-get install {packageOf program})"
  "\n".intercalate (root ++ programs)

/-- The check of a host on which the programs that satisfy `present` can be found. -/
def ofHost (present : String → Bool) (isRoot rootRequired : Bool) : Preflight :=
  { missing := requiredPrograms.filter (!present ·), isRoot, rootRequired }

/-- The environment can waive the root check, and so can the configuration. -/
def waivesRoot (setting? : Option String) (configured : Bool) : Bool :=
  configured || setting?.any fun value =>
    value == "1" || value.toList.map Char.toLower == "true".toList

end Preflight

end Provision
