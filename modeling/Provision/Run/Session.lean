import Provision.Failure
import Provision.Files
import Provision.Outcome
import Provision.Signal

/-!
# Sessions

A run asks collaborators for what it cannot do itself. A `Session` is the world as the run sees it:
the files, whether an interrupt has arrived, and the trace of all that has happened so far.

Signals arrive before a run or while a collaborator is at work. In the program they may arrive
between two calls as well, for instance while a source file is written; this is left out.
-/

namespace Provision

/-- A request to a collaborator. -/
inductive Call where
  | addRepository (identifier : String)
  | refreshIndex
  | runScript (text : String)
  | fetch (url : String)
  | nameOf (archive : Path)
  | installArchive (archive : Path)
  | reinstall (package : String)
deriving DecidableEq

/-- What a collaborator does when it is asked for something. -/
structure Response (α : Type) where
  result : Except Failure α
  files : Files
  /-- What it writes to standard output. -/
  shown : ByteArray := ByteArray.empty
  /-- The signals that arrive while it is at work, first one first. -/
  signals : List Signal := []

/-- An interrupt arrives while the collaborator is at work. -/
def Response.interrupt {α : Type} (response : Response α) : Bool := !response.signals.isEmpty

/--
What collaborators do may depend on the calls before, first one first, and on the files. A call is
answered by the path of the fetched file or the name in the archive, or by success alone.
-/
structure Collaborators where
  respond : List Call → Call → Files → Response String

/-- What happens in a run, as far as anyone outside could tell. -/
inductive Event where
  /-- The visit to a unit begins. -/
  | began (unit : String)
  /-- A step of the unit begins. -/
  | entered (step : Step)
  | called (call : Call) (result : Except Failure String) (shown : ByteArray)
  | wroteSource (path : Path)
  | createdMarker (path : Path)
  | reported (result : UnitResult)

namespace Event

def call? : Event → Option Call
  | called call _ _ => some call
  | _ => none

def result? : Event → Option UnitResult
  | reported result => some result
  | _ => none

end Event

/-- The program as a signal has ended it at once: what had become of the files, and what had happened
by then. -/
structure AbruptEnd where
  signal : Signal
  files : Files
  trace : List Event

structure Session where
  files : Files
  interrupted : Bool := false
  trace : List Event := []
  /-- Where the program has ended, if it has. A run is followed further, as if it had not. -/
  abruptEnd? : Option AbruptEnd := none

namespace Session

/-- The calls so far, first one first. -/
def calls (session : Session) : List Call := session.trace.filterMap Event.call?

/-- The results so far, first one first. -/
def results (session : Session) : List UnitResult := session.trace.filterMap Event.result?

def note (session : Session) (event : Event) : Session :=
  { session with trace := session.trace ++ [event] }

@[simp] theorem calls_note (session : Session) (event : Event) :
    (session.note event).calls = session.calls ++ event.call?.toList := by
  simp only [calls, note, List.filterMap_append, List.filterMap_cons, List.filterMap_nil]
  cases event.call? <;> rfl

@[simp] theorem results_note (session : Session) (event : Event) :
    (session.note event).results = session.results ++ event.result?.toList := by
  simp only [results, note, List.filterMap_append, List.filterMap_cons, List.filterMap_nil]
  cases event.result? <;> rfl

/-- The program ends here if there is such a signal, unless it has ended before. -/
def endBy (session : Session) (signal? : Option Signal) : Session :=
  { session with
    abruptEnd? := session.abruptEnd?.or <| signal?.map fun signal =>
      ⟨signal, session.files, session.trace⟩ }

@[simp] theorem files_endBy (session : Session) (signal? : Option Signal) :
    (session.endBy signal?).files = session.files := rfl

@[simp] theorem interrupted_endBy (session : Session) (signal? : Option Signal) :
    (session.endBy signal?).interrupted = session.interrupted := rfl

@[simp] theorem trace_endBy (session : Session) (signal? : Option Signal) :
    (session.endBy signal?).trace = session.trace := rfl

@[simp] theorem calls_endBy (session : Session) (signal? : Option Signal) :
    (session.endBy signal?).calls = session.calls := rfl

@[simp] theorem endBy_none (session : Session) : session.endBy none = session := by
  cases session
  simp [endBy]

/-- Makes a call. An interrupt that has arrived stays, and another signal ends the program. -/
def request (session : Session) (collaborators : Collaborators) (call : Call) :
    Session × Except Failure String :=
  let response := collaborators.respond session.calls call session.files
  let after := { session with
    files := response.files
    interrupted := session.interrupted || response.interrupt }
  let noted := after.note (.called call response.result response.shown)
  (noted.endBy (Signal.fatal? session.interrupted response.signals), response.result)

theorem calls_request (session : Session) (collaborators : Collaborators) (call : Call) :
    (session.request collaborators call).1.calls = session.calls ++ [call] := by
  simp only [request, calls_endBy, calls_note, Event.call?, Option.toList_some]
  rfl

theorem results_request (session : Session) (collaborators : Collaborators) (call : Call) :
    (session.request collaborators call).1.results = session.results :=
  (results_note _ (.called call _ _)).trans (List.append_nil _)

theorem interrupted_request (session : Session) (collaborators : Collaborators) (call : Call)
    (h : session.interrupted = true) :
    (session.request collaborators call).1.interrupted = true := by
  simp [request, note, h]

end Session

end Provision
