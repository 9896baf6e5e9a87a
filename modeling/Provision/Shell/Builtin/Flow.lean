import Provision.Shell.Builtin.Settings

/-!
# Builtins that leave

The ends of loops, functions and shells.
-/

namespace Provision.Shell.Builtin

/-- The status that a word gives, or the present one. -/
def statusOf? (name : String) (words : List Bytes) : Act (Option Nat) := do
  let words := if words.head? = some ['-', '-'] then words.drop 1 else words
  match words with
  | [] => return some (← get).status
  | word :: rest =>
    match integer? word with
    | some n =>
      if rest.isEmpty then return some (n % 256).toNat else tooMany name
    | none =>
      Act.complainOf name s!"{shown word}: numeric argument required"
      return none

/-- Leaves the shell; without a status, the last trap leaves it with the status from before. -/
def leaveShell (words : List Bytes) : Act Unit := do
  if words.isEmpty then modify fun state => { state with status := state.ending?.getD state.status }
  Act.finish ((← statusOf? "exit" words).getD 2)
  Act.jump .exit

def leaveFunction (words : List Bytes) : Act Unit := do
  let state ← get
  if state.callers.isEmpty && state.sourcing = 0 then
    let word := s!"{backquote}return{apostrophe}"
    Act.complainOf "return" s!"can only {word} from a function or sourced script"
    Act.finish 2
  else
    Act.finish ((← statusOf? "return" words).getD 2)
    Act.jump (.return state.status)

/-- Leaves so many loops, or goes on with the last of them. -/
def leaveLoops (name : String) (jump : Nat → Jump) (words : List Bytes) : Act Unit := do
  let loops := (← get).loops
  if loops = 0 then
    let kinds := ["for", "while", "until"].map fun kind => s!"{backquote}{kind}{apostrophe}"
    let all := ", ".intercalate (kinds.take 2) ++ ", or " ++ ", ".intercalate (kinds.drop 2)
    Act.complainOf name s!"only meaningful in a {all} loop"
    Act.succeed
  else match words with
    | [] =>
      Act.succeed
      Act.jump (jump 1)
    | word :: rest =>
      match integer? word with
      | none =>
        Act.complainOf name s!"{shown word}: numeric argument required"
        Act.finish 128
        Act.jump .exit
      | some n =>
        if !rest.isEmpty then tooMany name
        else if n < 1 then
          Act.complainOf name s!"{shown word}: loop count out of range"
          Act.fail
          Act.jump (.leave loops)
        else
          Act.succeed
          Act.jump (jump (min n.toNat loops))

end Provision.Shell.Builtin
