/-!
# Signals

Three signals ask the program to stop. The first of them to arrive interrupts it: it goes on to the
end of what it is at and then unwinds. Another one ends it at once.
-/

namespace Provision

inductive Signal where
  | hangup
  | interrupt
  | terminate
deriving DecidableEq

namespace Signal

def number : Signal → Nat
  | hangup => 1
  | interrupt => 2
  | terminate => 15

/-- The code of a program that a signal has ended at once. -/
def exitCode (signal : Signal) : Nat := 128 + signal.number

/-- Which of the signals that arrive, first one first, ends the program at once. -/
def fatal? (interrupted : Bool) (arriving : List Signal) : Option Signal :=
  if interrupted then arriving.head? else arriving.tail.head?

@[simp] theorem fatal?_nil (interrupted : Bool) : fatal? interrupted [] = none := by
  cases interrupted <;> rfl

end Signal

end Provision
