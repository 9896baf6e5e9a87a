import Provision.Shell.Engine
import Provision.Shell.Options
import Provision.Shell.Print

/-!
# Builtins that print

`echo` and `printf`. What they print is worked out first and written at once.
-/

namespace Provision.Shell.Builtin

/-- Writes to the output; says so if that is not possible. -/
def emit (name : String) (text : Bytes) : Act Bool := do
  if text.isEmpty || (← Act.write 1 text) then return true
  else
    Act.complainOf name "write error: Bad file descriptor"
    return false

structure EchoStyle where
  newline : Bool := true
  escapes : Bool := false

/-- The options of `echo`; a word with any other letter is printed. -/
def EchoStyle.read : List Bytes → EchoStyle → EchoStyle × List Bytes
  | [], style => (style, [])
  | word :: rest, style =>
    match word with
    | '-' :: letter :: letters =>
      if (letter :: letters).all "neE".toList.contains then
        let style := (letter :: letters).foldl (fun style c =>
          if c = 'n' then { style with newline := false }
          else { style with escapes := c == 'e' }) style
        EchoStyle.read rest style
      else (style, word :: rest)
    | _ => (style, word :: rest)

def echo (words : List Bytes) : Act Unit := do
  let (style, words) := EchoStyle.read words { escapes := (← get).hasExtra "xpg_echo" }
  let text := [' '].intercalate words
  let (text, stopped) := if style.escapes then unescape .echoed text else (text, false)
  let ending := if style.newline && !stopped then ['\n'] else []
  if ← emit "echo" (text ++ ending) then Act.succeed else Act.fail

/-- Prints a format, or stores what it would print. -/
def formatTo (e : Engine) (target? : Option Bytes) (words : List Bytes) : Act Unit := do
  match words with
  | [] => Act.finish 2
  | format :: arguments =>
    let (output, complaints) := Print.format shown format arguments
    for complaint in complaints do Act.complainOf "printf" complaint
    let done ← match target? with
      | none => emit "printf" output
      | some target =>
        let name := target.takeWhile (· != '[')
        let index := (target.drop (name.length + 1)).dropLast
        let index? := if name.length = target.length then none else some index
        e.assign name index? false output
    if done && complaints.isEmpty then Act.succeed else Act.fail

def printf (e : Engine) (words : List Bytes) : Act Unit :=
  Act.withOptions "printf" "" "v" words fun options => do
    match options.value? 'v' with
    | none => formatTo e none options.operands
    | some target =>
      if isName (target.takeWhile (· != '[')) then formatTo e (some target) options.operands
      else
        Act.refuseName "printf" target
        Act.finish 2

end Provision.Shell.Builtin
