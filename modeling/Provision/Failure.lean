import Provision.Document.Diagnostic

/-!
# Failures

A `Failure` is what went wrong with an operation on the host, as a chain of texts from the outermost
to the innermost. A `RunError` ends the program, and its kind decides the exit code.
-/

namespace Provision

structure Failure where
  message : String
  causes : List String := []
deriving DecidableEq

namespace Failure

/-- The whole chain on one line. -/
def text (failure : Failure) : String := ": ".intercalate (failure.message :: failure.causes)

/-- Puts what was being done in front of what went wrong. -/
def within (failure : Failure) (message : String) : Failure :=
  ⟨message, failure.message :: failure.causes⟩

end Failure

inductive RunError where
  | io (message : String)
  | document (path : String) (diagnostic : Document.Diagnostic)
  | configuration (message : String)
  | environment (message : String)
  | aborted (unit reason : String)
  | interrupted
deriving DecidableEq

namespace RunError

def message : RunError → String
  | io message => s!"IO error: {message}"
  | document path diagnostic => s!"{path}: {diagnostic.message}"
  | configuration message => s!"Configuration error: {message}"
  | environment message => s!"Environment error: {message}"
  | aborted unit reason => s!"Aborted: unit '{unit}' failed: {reason}"
  | interrupted => "Interrupted by signal"

/-- What the user wrote is 2, the interrupt signal is 130, all else is 1. -/
def exitCode : RunError → Nat
  | document _ _ => 2
  | configuration _ => 2
  | interrupted => 130
  | _ => 1

end RunError

end Provision
