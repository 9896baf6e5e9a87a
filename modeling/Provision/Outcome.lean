import Provision.Decision

/-!
# Outcomes

What became of each unit, and the report of a run, which sums it up.
-/

namespace Provision

/-- The seven steps that a unit goes through. -/
inductive Step where
  | repositories
  | sources
  | refreshIndex
  | preScript
  | retrieve
  | install
  | postScript
deriving DecidableEq, Repr

namespace Step

def all : List Step :=
  [repositories, sources, refreshIndex, preScript, retrieve, install, postScript]

def label : Step → String
  | repositories => "repositories"
  | sources => "sources"
  | refreshIndex => "refresh_index"
  | preScript => "pre_script"
  | retrieve => "retrieve"
  | install => "install"
  | postScript => "post_script"

def ofPhase : Phase → Step
  | .pre => preScript
  | .post => postScript

end Step

structure StepFault where
  step : Step
  message : String
deriving DecidableEq

def StepFault.describe (fault : StepFault) : String :=
  s!"{fault.step.label}: {fault.message}"

inductive Outcome where
  | completed
  | skipped (cause : SkipCause)
  | failed (fault : StepFault)
deriving DecidableEq

namespace Outcome

def isCompleted (outcome : Outcome) : Bool := outcome matches completed

def isSkipped (outcome : Outcome) : Bool := outcome matches skipped _

def isFailed (outcome : Outcome) : Bool := outcome matches failed _

def mark : Outcome → String
  | completed => "✓"
  | skipped _ => "-"
  | failed _ => "✗"

def describe : Outcome → String
  | completed => "completed"
  | skipped cause => s!"skipped ({cause.message})"
  | failed fault => s!"failed ({fault.describe})"

end Outcome

structure UnitResult where
  name : String
  bucket : Bucket
  outcome : Outcome
  actions : List String := []
deriving DecidableEq

def UnitResult.line (result : UnitResult) : String :=
  s!"{result.outcome.mark} {result.name}: {result.outcome.describe}"

structure Report where
  units : List UnitResult := []
deriving DecidableEq

namespace Report

def push (report : Report) (result : UnitResult) : Report := ⟨report.units ++ [result]⟩

def completed (report : Report) : Nat :=
  report.units.countP fun result => result.outcome.isCompleted

def skipped (report : Report) : Nat := report.units.countP fun result => result.outcome.isSkipped

/-- The names of the failed units. -/
def failed (report : Report) : List String :=
  (report.units.filter fun result => result.outcome.isFailed).map UnitResult.name

def hasFailures (report : Report) : Bool := report.units.any fun result => result.outcome.isFailed

theorem completed_add_skipped_add_failed (report : Report) :
    report.completed + report.skipped + report.failed.length = report.units.length := by
  obtain ⟨units⟩ := report
  induction units with
  | nil => rfl
  | cons result rest ih =>
    simp only [completed, skipped, failed, List.length_map, ← List.countP_eq_length_filter,
      List.countP_cons, List.length_cons] at ih ⊢
    have one : (if result.outcome.isCompleted then 1 else 0) +
        (if result.outcome.isSkipped then 1 else 0) +
        (if result.outcome.isFailed then 1 else 0) = 1 := by
      cases result.outcome <;> rfl
    omega

def summary (report : Report) : String :=
  let failed := report.failed
  let counts := s!"{report.completed} completed, {report.skipped} skipped, {failed.length} failed"
  if report.hasFailures then counts ++ "\nFailed units: " ++ ", ".intercalate failed else counts

end Report

end Provision
