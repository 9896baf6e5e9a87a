import Provision.Bucket
import Provision.Path

/-!
# Installable units

An `Installable` is one unit of a document: what to install, from where, under which conditions,
and the two scripts around it. Its last two fields are not declared but filled in while it runs.
-/

namespace Provision

/-- How the payload of a unit reaches the host. -/
inductive Delivery where
  | packageManager
  | downloadedArchive
deriving DecidableEq, Repr

namespace Delivery

def all : List Delivery := [packageManager, downloadedArchive]

def label : Delivery → String
  | packageManager => "package_manager"
  | downloadedArchive => "downloaded_archive"

def describe : Delivery → String
  | packageManager => "package manager"
  | downloadedArchive => "downloaded archive"

end Delivery

/-- The two moments at which a unit runs a script. -/
inductive Phase where
  | pre
  | post
deriving DecidableEq, Repr

namespace Phase

def all : List Phase := [pre, post]

def label : Phase → String
  | pre => "pre"
  | post => "post"

def describe : Phase → String
  | pre => "pre-install"
  | post => "post-install"

/-- The flag that makes the script of this phase alone run once. -/
def onceFlag : Phase → Flag
  | pre => .preOnce
  | post => .postOnce

end Phase

/-- A package source file that a unit brings along. -/
structure SourceFile where
  path : Path
  content : String
deriving DecidableEq

/-- The content as it is written, with a newline at its end. -/
def SourceFile.bytes (entry : SourceFile) : ByteArray :=
  if entry.content.toList.getLast? = some '\n' then entry.content.toUTF8
  else (entry.content ++ "\n").toUTF8

structure Installable where
  name : String
  delivery : Delivery := .packageManager
  url? : Option String := none
  /-- Repository identifiers in the order of their declaration, each once. -/
  repositories : List String := []
  sources : List SourceFile := []
  preScript? : Option String := none
  postScript? : Option String := none
  /-- A sorted set. -/
  flags : List Flag := []
  /-- A sorted set. -/
  hosts : List String := []
  package? : Option String := none
  /-- The archive that was fetched for the unit. -/
  archive? : Option Path := none
  /-- A repository or source file is new, so the package index must be refreshed. -/
  refreshDue : Bool := false
deriving DecidableEq

namespace Installable

/-- The name the package manager knows the unit by. -/
def package (unit : Installable) : String := unit.package?.getD unit.name

def has (unit : Installable) (flag : Flag) : Bool := unit.flags.contains flag

def bucket (unit : Installable) : Bucket := .ofFlags unit.flags

def script? (unit : Installable) : Phase → Option String
  | .pre => unit.preScript?
  | .post => unit.postScript?

def isOnce (unit : Installable) (phase : Phase) : Bool :=
  unit.has phase.onceFlag || unit.has .bothOnce

end Installable

end Provision
