import Provision.Flag

/-!
# Buckets

Units run in three buckets, one after the other. A unit's flags say which bucket it is in.
-/

namespace Provision

inductive Bucket where
  | lead
  | main
  | trail
deriving DecidableEq, Repr

namespace Bucket

/-- The buckets in the order in which they run. -/
def all : List Bucket := [lead, main, trail]

def label : Bucket → String
  | lead => "lead"
  | main => "main"
  | trail => "trail"

/-- The flag `lead` wins over `trail`, wherever it stands in the list. -/
def ofFlags (flags : List Flag) : Bucket :=
  if flags.contains .lead then lead else if flags.contains .trail then trail else main

end Bucket

end Provision
