/-!
# Child processes

The processes that a run has started and that are still at work. The first cleanup terminates all
of them; a later one does nothing.
-/

namespace Provision

structure Children where
  /-- Each once. -/
  pids : List Nat := []
  cleanedUp : Bool := false

namespace Children

def count (children : Children) : Nat := children.pids.length

def register (children : Children) (pid : Nat) : Children :=
  if children.pids.contains pid then children else { children with pids := pid :: children.pids }

def unregister (children : Children) (pid : Nat) : Children :=
  { children with pids := children.pids.filter (· != pid) }

/-- The processes that are signalled, and what is tracked afterwards. -/
def terminate (children : Children) : List Nat × Children :=
  if children.cleanedUp then ([], children) else (children.pids, { pids := [], cleanedUp := true })

end Children

end Provision
