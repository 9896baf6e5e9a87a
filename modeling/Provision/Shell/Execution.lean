import Provision.Shell.Condition
import Provision.Shell.Invocation

/-!
# Execution

What commands do: simple ones, pipelines, and the compound ones with which a script decides and
repeats. A command that fails ends the shell if that is asked for, unless the commands around it
look at its failure.
-/

namespace Provision.Shell.Engine

variable (e : Engine)

/-! ## Traps and failures -/

/-- Runs what is trapped for an event, which functions do not notice unless that is asked for. -/
def trapped (event : String) : Act Unit := do
  let state ← get
  if state.callers.isEmpty || state.has (if event = "ERR" then "errtrace" else "functrace") then
    e.runTrap event

/-- What follows a command that nothing around looks at. -/
def settle : Act Unit := do
  let state ← get
  if state.status != 0 && !state.guarded then
    e.trapped "ERR"
    if (← get).has "errexit" then Act.jump .exit

/-- The end of a pipeline of one command; `noticed` unless its failure is asked for. -/
def settleOne (noticed : Bool) : Act Unit := do
  modify fun state => { state with statuses := [state.status] }
  if noticed then e.settle

/-- Runs something whose failure is looked at. -/
def guarding (body : Act Unit) : Act Unit := do
  let before := (← get).guarded
  modify fun state => { state with guarded := true }
  Act.after body fun state => { state with guarded := before }

/-! ## Simple commands -/

def trace (words : List Bytes) : Act Unit := do
  let state ← get
  if state.has "xtrace" then
    let start := (state.textOf? "PS4").getD "+ ".toList
    discard (Act.write 2 (start ++ [' '].intercalate (words.map traced) ++ ['\n']))

/-- Assigns and redirects without a command. The status is that of the last substitution. -/
def assignOnly (assignments : List Assignment) (redirects : List Redirect) : Act Unit := do
  e.assignAll assignments
  let status := (← get).substituted?.getD 0
  e.redirected redirects (Act.finish status)

/-- Redirects for good, which is what `exec` does, and calls what follows. -/
def invokeForGood (redirects : List Redirect) (arguments : List Argument) : Act Unit := do
  if ← e.redirectAll redirects then
    Act.succeed
    e.invoke 2 false "exec".toList arguments
  else Act.fail

/-- A name that is neither that of a function nor that of a builtin. -/
def isProgram (state : State) (name : Bytes) : Bool :=
  (state.functions.lookup name).isNone && !Builtin.isBuiltin state name

def call (assignments : List Assignment) (redirects : List Redirect) (name : Bytes)
    (arguments : List Argument) : Act Unit := do
  let state ← get
  let isExec := name = "exec".toList && (state.functions.lookup name).isNone
  let body : Act Unit :=
    if isExec then e.invokeForGood redirects arguments
    else
      let run := e.redirected redirects (e.invoke (arguments.length + 2) true name arguments)
      -- A program is a process of its own already when its streams are redirected.
      if isProgram state name && !redirects.isEmpty then e.process 0 run else run
  if assignments.isEmpty then body
  else
    let depth := (← get).scopes.length
    let run : Act Unit := do
      e.assignHere assignments
      body
    Act.after run fun state =>
      { state with scopes := state.scopes.drop (state.scopes.length - depth) }

def simple (noticed : Bool) (line : Nat) (assignments : List Assignment)
    (items : List Item) (redirects : List Redirect) : Act Unit := do
  let around := (← get).line
  modify fun state => { state with line, substituted? := none }
  e.trapped "DEBUG"
  match (← items.mapM e.arguments).flatten with
  | [] => e.assignOnly assignments redirects
  | first :: rest =>
    let words := (first :: rest).map Argument.text
    trace words
    modify fun state => { state with lastArgument := words.getLastD [] }
    e.call assignments redirects first.text rest
  e.settleOne noticed
  modify fun state => { state with line := around }

/-! ## Loops -/

/-- How the body of a loop has ended. -/
inductive Turn where
  | done
  /-- The loop goes on with its next turn. -/
  | again
  | left

/-- Runs the body of a loop once. -/
def turn (body : Act Unit) : Act Turn := do
  let loops := (← get).loops
  modify fun state => { state with loops := loops + 1 }
  match ← Act.after (Act.attempt body) fun state => { state with loops } with
  | none => return .done
  | some (.leave levels) => if levels ≤ 1 then return .left else Act.jump (.leave (levels - 1))
  | some (.next levels) => if levels ≤ 1 then return .again else Act.jump (.next (levels - 1))
  | some jump => Act.jump jump

/-- The most turns that a loop takes. A shell that would go on is stopped. -/
def mostTurns : Nat := 0x100000

/-- A loop with a condition; `last` is the status of the turn before. -/
def conditionLoop (negated : Bool) (condition body : List Command) : Nat → Nat → Act Unit
  | 0, _ => Act.die 9 false
  | limit + 1, last => do
    match ← turn (guarding (e.runAll condition)) with
    | .left => return
    | .again => conditionLoop negated condition body limit last
    | .done =>
      if ((← get).status = 0) = negated then Act.finish last
      else
        match ← turn (e.runAll body) with
        | .left => return
        | _ => conditionLoop negated condition body limit (← get).status

/-- Runs the body for each word. -/
def eachWord (name : Bytes) (body : List Command) : List Bytes → Act Unit
  | [] => return
  | word :: rest => do
    e.trapped "DEBUG"
    if !(← e.assign name none false word) then
      Act.fail
      e.settle
    else match ← turn (e.runAll body) with
      | .left => return
      | _ => eachWord name body rest

/-- Runs a loop over words, which are the parameters of the script if none are listed. -/
def overWords (name : Bytes) (words? : Option (List (List Part)))
    (loop : List Bytes → Act Unit) : Act Unit := do
  let words ← match words? with
    | some words => pure (← words.mapM e.words).flatten
    | none => pure (← get).positional
  if !isName name then
    Act.complain s!"{backquote}{shown name}{apostrophe}: not a valid identifier"
    Act.fail
  else
    if words.isEmpty then Act.succeed
    loop words

/-- Lists words by the numbers under which they are chosen. -/
def menu (words : List Bytes) : Bytes :=
  words.zipIdx.flatMap fun (word, i) => decimalOf (i + 1) ++ [')', ' '] ++ word ++ ['\n']

/-- Runs the body for each choice that is read; an empty one shows the menu again. -/
def menuLoop (name : Bytes) (words : List Bytes) (body : List Command) :
    Nat → Bool → Act Unit
  | 0, _ => Act.die 9 false
  | limit + 1, shows => do
    if shows then discard (Act.write 2 (menu words))
    discard (Act.write 2 (((← get).textOf? "PS3").getD "#? ".toList))
    Builtin.read e []
    if (← get).status != 0 then
      discard (Act.write 1 ['\n'])
      Act.fail
    else
      let answer := ((← get).textOf? "REPLY").getD []
      if answer.isEmpty then menuLoop name words body limit true
      else
        let chosen := match integer? answer with
          | some (.ofNat (n + 1)) => words.getD n []
          | _ => []
        if !(← e.assign name none false chosen) then Act.fail
        else match ← turn (e.runAll body) with
          | .left => return
          | _ =>
            let again := ((← get).textOf? "REPLY").getD []
            menuLoop name words body limit again.isEmpty

def counted? (expression : List Part) : Act (Option Int) := do
  e.calculated? "((: " (← e.text expression)

/-- Whether a loop goes on; one without a condition does. -/
def goesOn? (condition : List Part) : Act (Option Bool) := do
  if (← e.text condition).all isBlank then return some true
  else return (← e.counted? condition).map (· != 0)

/-- A loop with a condition and a step; `last` is the status of the turn before. -/
def countLoop (condition step : List Part) (body : List Command) : Nat → Nat → Act Unit
  | 0, _ => Act.die 9 false
  | limit + 1, last => do
    match ← e.goesOn? condition with
    | none => Act.fail
    | some false => Act.finish last
    | some true =>
      match ← turn (e.runAll body) with
      | .left => return
      | _ =>
        let status := (← get).status
        match ← e.counted? step with
        | none => Act.fail
        | some _ => countLoop condition step body limit status

/-! ## Choices -/

def branches : List Branch → List Command → Act Unit
  | [], otherwise => if otherwise.isEmpty then Act.succeed else e.runAll otherwise
  | .mk condition body :: rest, otherwise => do
    guarding (e.runAll condition)
    if (← get).status = 0 then
      e.runAll body
    else branches rest otherwise

/-- Whether one of some patterns matches. -/
def matchesAny (subject : Bytes) : List (List Part) → Act Bool
  | [] => return false
  | parts :: rest => do
    let pattern ← e.pattern parts
    if Pattern.isMatch ((← get).hasExtra "nocasematch") pattern subject then return true
    else matchesAny subject rest

/-- Runs the clauses that are chosen; `falls` says that the next one is chosen in any case, and
`ran` that one has been. -/
def clauses (subject : Bytes) : Bool → Bool → List Clause → Act Unit
  | _, ran, [] => if ran then return else Act.succeed
  | falls, ran, .mk patterns body leaving :: rest => do
    let chosen ← if falls then pure true else e.matchesAny subject patterns
    if !chosen then clauses subject false ran rest
    else
      if body.isEmpty then Act.succeed
      e.runAll body
      match leaving with
      | .leave => return
      | .fallThrough => clauses subject true true rest
      | .tryNext => clauses subject false true rest

/-! ## Compound commands -/

def compound (noticed : Bool) (body : Compound) : Act Unit := do
  match body with
  | .group commands => e.runAll commands
  | .subshell commands =>
    e.subshell (e.runAll commands)
    e.settleOne noticed
  | .branch found otherwise => e.branches found otherwise
  | .loop negated condition commands => e.conditionLoop negated condition commands mostTurns 0
  | .each name words? commands => e.overWords name words? (e.eachWord name commands)
  | .menu name words? commands =>
    e.overWords name words? fun words =>
      if words.isEmpty then return else e.menuLoop name words commands mostTurns true
  | .count start condition step commands =>
    match ← e.counted? start with
    | none => Act.fail
    | some _ => e.countLoop condition step commands mostTurns 0
  | .choose subject found =>
    e.trapped "DEBUG"
    let text ← e.text subject
    e.clauses text false false found
  | .condition condition =>
    e.trapped "DEBUG"
    Act.finish (← e.conditionStatus condition)
    e.settleOne noticed
  | .calculate expression =>
    e.trapped "DEBUG"
    match ← e.counted? expression with
    | some n => Act.finish (if n = 0 then 1 else 0)
    | none => Act.fail
    e.settleOne noticed
  | .define name command =>
    modify fun state =>
      let others := state.functions.filter (·.1 != name)
      { state with functions := others ++ [(name, command)] }
    Act.succeed

/-- The line of such a command is the current one while it runs. -/
def hasOwnLine : Compound → Bool
  | .each _ _ _ | .menu _ _ _ | .count _ _ _ _ | .choose _ _ | .condition _ | .calculate _ => true
  | .group _ | .subshell _ | .branch _ _ | .loop _ _ _ | .define _ _ => false

/-- Runs a command that is no list. With `negated` its failure counts as success, unless a
redirection of a compound command is refused. -/
def element (noticed negated : Bool) (command : Command) : Act Unit := do
  let negate : Act Unit := do
    if negated then Act.finish (if (← get).status = 0 then 1 else 0)
  match command with
  | .simple line assignments items redirects =>
    e.simple noticed line assignments items redirects
    negate
  | .compound line body redirects =>
    let around := (← get).line
    let run : Act Unit := do
      if hasOwnLine body then modify fun state => { state with line }
      e.compound noticed body
      modify fun state => { state with line := around }
      negate
    if redirects.isEmpty then run
    else
      let refused : Act Unit := do
        Act.fail
        if noticed then e.settle
      e.redirectedOr refused redirects run
  | other =>
    e.run other
    negate

/-! ## Pipelines -/

/-- Runs the commands of a pipeline, each in a shell of its own; how each has ended. -/
def stages (input? : Option Nat) : List Command → Act (List Nat)
  | [] => return []
  | command :: rest => do
    let state ← get
    let before := state.status
    let descriptors := state.descriptors
    let (state, output) := state.addStream (.sink [])
    set state
    let plumb (state : State) : State :=
      let state := input?.elim state (state.setDescriptor 0)
      if rest.isEmpty then state else state.setDescriptor 1 output
    let body : Act Unit := do
      modify plumb
      e.element false false command
    if rest.isEmpty && state.hasExtra "lastpipe" then
      Act.after body fun state => { state with descriptors }
    else e.subshell body
    let status := (← get).status
    let (after, input) := (← get).addStream (.source ((← get).written output))
    -- Each command sees the status from before the pipeline.
    set { after with status := before }
    return status :: (← stages (some input) rest)

/-- The status of a pipeline: that of its last command, or of the last one that failed. -/
def pipelineStatus (state : State) (statuses : List Nat) : Nat :=
  let last := statuses.getLastD 0
  if state.has "pipefail" then (statuses.reverse.find? (· != 0)).getD 0 else last

def pipeline (negated : Bool) (commands : List Command) : Act Unit := do
  match commands with
  | [] => Act.finish (if negated then 1 else 0)
  | [command] =>
    -- Where failures do not end the shell, those inside a negated command are still noticed.
    let body := e.element (!negated) negated command
    if negated && (← get).has "errexit" then guarding body else body
  | _ =>
    let body : Act Unit := do
      let statuses ← e.stages none commands
      modify fun state => { state with status := pipelineStatus state statuses, statuses }
    if negated then
      guarding body
      Act.finish (if (← get).status = 0 then 1 else 0)
    else
      body
      e.settle

/-- Runs a command in the background, which is over before anything else happens. -/
def background (command : Command) : Act Unit := do
  let before := (← get).descriptors
  let (state, input) := (← get).addStream .nowhere
  set (state.setDescriptor 0 input)
  e.subshell (e.run command)
  modify fun state =>
    let number := (state.jobs.getLast?.elim 0 (·.number)) + 1
    { state with
      descriptors := before
      jobs := state.jobs ++ [⟨number, state.nextProcess, state.status⟩]
      lastJob? := some state.nextProcess
      nextProcess := state.nextProcess + 1
      status := 0 }

/-! ## Commands -/

def execute (command : Command) : Act Unit := do
  if (← get).has "noexec" then return
  match command with
  | .simple _ _ _ _ | .compound _ _ _ => e.element true false command
  | .pipeline negated commands => e.pipeline negated commands
  | .both first second =>
    guarding (e.run first)
    if (← get).status = 0 then e.run second
  | .either first second =>
    guarding (e.run first)
    if (← get).status != 0 then e.run second
  | .background command => e.background command

end Provision.Shell.Engine
