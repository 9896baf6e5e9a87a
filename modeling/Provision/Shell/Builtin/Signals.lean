import Provision.Shell.Condition
import Provision.Shell.Options

/-!
# Builtins for signals and jobs

A script can send signals to itself and to the program that has started it, and can say what is to
be done when one arrives. Jobs in the background have always ended when the next command starts.
-/

namespace Provision.Shell.Builtin

/-! ## Names -/

/-- The signals by their numbers, from one on. -/
def signalNames : List String :=
  ["HUP", "INT", "QUIT", "ILL", "TRAP", "ABRT", "BUS", "FPE", "KILL", "USR1", "SEGV", "USR2",
    "PIPE", "ALRM", "TERM", "STKFLT", "CHLD", "CONT", "STOP", "TSTP", "TTIN", "TTOU", "URG",
    "XCPU", "XFSZ", "VTALRM", "PROF", "WINCH", "IO", "PWR", "SYS"]

/-- Real-time signals stand above the others. -/
def realTimeNames : List (Nat × String) :=
  (34, "RTMIN") :: (List.range 15).map (fun i => (35 + i, s!"RTMIN+{i + 1}")) ++
    (List.range 14).map (fun i => (50 + i, s!"RTMAX-{14 - i}")) ++ [(64, "RTMAX")]

def numberedSignals : List (Nat × String) :=
  signalNames.zipIdx.map (fun (name, i) => (i + 1, name)) ++ realTimeNames

/-- Events that are no signals but can be trapped. -/
def eventNames : List String := ["EXIT", "DEBUG", "ERR", "RETURN"]

/-- The name of a signal by its number or its name, with or without `SIG`. -/
def signal? (word : Bytes) : Option String :=
  if !word.isEmpty && word.all Char.isDigit then
    let n := numberOf word
    if n = 0 then some "EXIT" else numberedSignals.lookup n
  else
    let upper := word.map Char.toUpper
    let plain := if "SIG".toList.isPrefixOf upper then upper.drop 3 else upper
    let name := String.ofList plain
    if (numberedSignals.map (·.2)).contains name then some name
    else if eventNames.contains (String.ofList upper) then some (String.ofList upper)
    else none

def signalNumber (name : String) : Nat :=
  match numberedSignals.find? fun entry => entry.2 = name with
  | some (n, _) => n
  | none => 0

/-- The name as lists of traps show it. -/
def trapName (name : String) : String := if eventNames.contains name then name else "SIG" ++ name

/-- All signals in columns of five. -/
def signalList : String :=
  let cells := numberedSignals.zipIdx.map fun ((n, name), i) =>
    let number := String.ofList ((decimalOf n).leftpad 2 ' ')
    number ++ ") SIG" ++ name ++ (if i % 5 = 4 then "\n" else "\t")
  String.join cells ++ "\n"

/-! ## Traps -/

/-- The traps in the order in which they are listed. -/
def trapLines (traps : List (Bytes × Bytes)) : Bytes :=
  let order := "EXIT" :: numberedSignals.map (·.2) ++ ["DEBUG", "ERR", "RETURN"]
  order.flatMap fun name =>
    match traps.lookup name.toList with
    | some action =>
      "trap -- ".toList ++ singleQuote action ++ ' ' :: (trapName name).toList ++ ['\n']
    | none => []

def setTrap (name : String) (action? : Option Bytes) : Act Unit :=
  modify fun state =>
    let others := state.traps.filter (·.1 != name.toList)
    { state with
      traps := others ++ (action?.map fun action => (name.toList, action)).toList
      heritage := [] }

/-- Sets one trap for each word; false if a word is no signal. -/
def setTraps (action? : Option Bytes) (words : List Bytes) : Act Bool :=
  words.foldlM (fun done word => do
    match signal? word with
    | some name =>
      setTrap name action?
      return done
    | none =>
      Act.complainOf "trap" s!"{shown word}: invalid signal specification"
      return false) true

def trapUsage : Act Unit := do
  discard (Act.write 2 "trap: usage: trap [-lp] [[arg] signal_spec ...]\n".toList)
  Act.finish 2

def printTraps (words : List Bytes) : Act Unit := do
  let state ← get
  let traps := if state.heritage.isEmpty then state.traps else state.heritage
  for word in words do
    match signal? word with
    | some name =>
      discard (Act.write 1 (trapLines (traps.filter fun entry => entry.1 = name.toList)))
    | none => Act.complainOf "trap" s!"{shown word}: invalid signal specification"
  if words.isEmpty then discard (Act.write 1 (trapLines traps))
  if words.all fun word => (signal? word).isSome then Act.succeed else Act.fail

def trap (words : List Bytes) : Act Unit :=
  -- A lone minus sign takes traps away and is no option.
  Act.withOptions "trap" "lp" "" words fun options => do
    let settle (done : Bool) : Act Unit := if done then Act.succeed else Act.fail
    if options.has 'l' then
      discard (Act.write 1 signalList.toList)
      Act.succeed
    else if options.has 'p' then printTraps options.operands
    else match options.operands with
      | [] => printTraps []
      | [word] =>
        if (signal? word).isSome then settle (← setTraps none [word]) else trapUsage
      | action :: rest =>
        if action = ['-'] then settle (← setTraps none rest)
        else if action.all Char.isDigit && !action.isEmpty then
          settle (← setTraps none (action :: rest))
        else settle (← setTraps (some action) rest)

/-! ## Signals -/

/-- Signals that a script does not notice. -/
def unnoticed : List String :=
  ["QUIT", "CHLD", "CONT", "URG", "WINCH", "STOP", "TSTP", "TTIN", "TTOU"]

/-- Signals that end a script without its last trap. -/
def abrupt : List String := ["KILL", "STKFLT", "IO", "PWR"]

/-- What a signal does to the shell that it is sent to. -/
def deliver (e : Engine) (name : String) : Act Unit := do
  let state ← get
  let trapped? := if name = "KILL" then none else state.traps.lookup name.toList
  match trapped? with
  | some action =>
    let status := state.status
    e.source action
    Act.finish status
  | none =>
    -- A program that has been interrupted does not wait for ever for the script to end.
    if name = "STOP" && !state.signals.isEmpty then Act.die (signalNumber "KILL") true
    if unnoticed.contains name then return
    if !abrupt.contains name then
      if let some action := state.traps.lookup "EXIT".toList then
        setTrap "EXIT" none
        e.source action
    -- A subshell that is interrupted ends as if it had succeeded.
    if name = "INT" && state.depth != 0 then
      Act.succeed
      Act.jump (.killed false)
    Act.die (signalNumber name) false

/-- The signals that interrupt the program which has started the shell. -/
def interrupting? : String → Option Signal
  | "HUP" => some .hangup
  | "INT" => some .interrupt
  | "TERM" => some .terminate
  | _ => none

/-- Sends a signal to the program that has started the shell. The first one makes it ask the script,
with all its subshells, to end. -/
def notify (e : Engine) (name : String) : Act Unit := do
  let state ← get
  if let some signal := interrupting? name then
    set { state with signals := state.signals ++ [signal] }
    if state.signals.isEmpty then
      if state.depth = 0 || (state.traps.lookup "TERM".toList).isSome then deliver e "TERM"
      else Act.die (signalNumber "TERM") true

/-- Sends a signal, or none, to one process; false if there is no such process. -/
def sendOne (e : Engine) (name? : Option String) (word : Bytes) : Act Bool := do
  let state ← get
  match integer? word with
  | none =>
    Act.complainOf "kill" s!"{shown word}: arguments must be process or job IDs"
    return false
  | some n =>
    let own : Int := State.ownNumber + state.depth
    if n = own || n = 0 then
      match name? with
      | some name => deliver e name
      | none => pure ()
      return true
    else if n = State.ownNumber then
      match name? with
      | some name => if !unnoticed.contains name then Act.die (signalNumber name) true
      | none => pure ()
      return true
    else if n = State.parentNumber then
      if let some name := name? then notify e name
      return true
    else
      Act.complainOf "kill" s!"({n}) - No such process"
      return false

def send (e : Engine) (signal : Bytes) (words : List Bytes) : Act Unit := do
  match signal? signal with
  | none =>
    Act.complainOf "kill" s!"{shown signal}: invalid signal specification"
    Act.fail
  | some name =>
    if words.isEmpty then
      let usage := "kill: usage: kill [-s sigspec | -n signum | -sigspec] pid | jobspec ... " ++
        "or kill -l [sigspec]\n"
      discard (Act.write 2 usage.toList)
      Act.finish 2
    else
      Act.succeed
      let done ← words.foldlM (fun done word =>
        return (← sendOne e (if name = "EXIT" then none else some name) word) && done) true
      if done then Act.succeed else Act.fail

/-- The name of a number, or the number of a name. -/
def describeSignals (words : List Bytes) : Act Unit := do
  let describe (word : Bytes) : Option String :=
    match integer? word with
    | some (.ofNat n) =>
      let n := if 128 < n then n - 128 else n
      if n = 0 then some "EXIT" else numberedSignals.lookup n
    | some _ => none
    | none => (signal? word).map fun name => toString (signalNumber name)
  for word in words do
    match describe word with
    | some text => discard (Act.write 1 (text ++ "\n").toList)
    | none => Act.complainOf "kill" s!"{shown word}: invalid signal specification"
  if words.isEmpty then discard (Act.write 1 signalList.toList)
  if words.all fun word => (describe word).isSome then Act.succeed else Act.fail

def kill (e : Engine) (words : List Bytes) : Act Unit := do
  match words with
  | ['-', 'l'] :: rest => describeSignals rest
  | ['-', 'L'] :: rest => describeSignals rest
  | ['-', '-'] :: rest => send e "TERM".toList rest
  | [['-', 's']] | [['-', 'n']] =>
    Act.complainOf "kill" s!"{shown words.flatten}: option requires an argument"
    Act.fail
  | ['-', 's'] :: signal :: rest => send e signal (rest.filter (· != ['-', '-']))
  | ['-', 'n'] :: signal :: rest => send e signal (rest.filter (· != ['-', '-']))
  | ('-' :: c :: signal) :: rest => send e (c :: signal) (rest.filter (· != ['-', '-']))
  | _ => send e "TERM".toList words

/-! ## Jobs -/

/-- A job that is named by its number, or as the last one. -/
def namedJob? (state : State) (word : Bytes) : Option Job :=
  match integer? (word.drop 1) with
  | some n => state.jobs.find? fun job => (job.number : Int) = n
  | none => state.jobs.getLast?

/-- Takes a job from those that have not been waited for, and gives its status. -/
def settleJob (job : Job) : Act Unit := do
  modify fun state =>
    { state with jobs := state.jobs.filter (· != job), settled := job :: state.settled }
  Act.finish job.status

def waitFor (word : Bytes) : Act Unit := do
  let state ← get
  match integer? word with
  | some n =>
    match (state.jobs ++ state.settled).find? fun job => (job.process : Int) = n with
    | some job => settleJob job
    | none =>
      Act.complainOf "wait" s!"pid {n} is not a child of this shell"
      Act.finish 127
  | none =>
    if word.head? = some '%' then
      match namedJob? state word with
      | some job => settleJob job
      | none =>
        Act.complainOf "wait" s!"{shown word}: no such job"
        Act.finish 127
    else
      Act.complainOf "wait" s!"{backquote}{shown word}{apostrophe}: not a pid or valid job spec"
      Act.fail

def wait (words : List Bytes) : Act Unit :=
  Act.withOptions "wait" "fn" "p" words fun options => do
    let state ← get
    if options.has 'n' then
      match state.jobs with
      | job :: _ =>
        if let some name := options.value? 'p' then
          modify fun state => state.setText (String.ofList name) (decimalOf job.process)
        settleJob job
      | [] => Act.finish 127
    else if options.operands.isEmpty then
      modify fun state => { state with jobs := [] }
      Act.succeed
    else options.operands.forM waitFor

end Provision.Shell.Builtin
