import Provision.Invocation

/-!
# What a run prints

The lines that the program itself prints while it runs the units of a document. The last one sums up
the others: its counts and names can be read off the status lines above it.
-/

namespace Provision

/-- The line that the program itself has printed, if it is not a tool that has. -/
def Output.own? : Output → Option String
  | line text => some text
  | tool _ => none

/-- What is printed when a unit is reported. -/
def UnitResult.shown (dryRun : Bool) (result : UnitResult) : List String :=
  result.line :: if dryRun then result.actions.map fun action => s!"    would {action}" else []

theorem own_ofEvent (dryRun : Bool) (event : Event) :
    (Output.ofEvent dryRun event).filterMap Output.own? =
      event.result?.toList.flatMap (UnitResult.shown dryRun) := by
  cases event with
  | reported result =>
    cases dryRun <;>
      simp [Output.ofEvent, Event.result?, UnitResult.shown, Output.own?, Function.comp_def]
  | _ => rfl

theorem own_ofTrace (dryRun : Bool) (trace : List Event) :
    (trace.flatMap (Output.ofEvent dryRun)).filterMap Output.own? =
      (trace.filterMap Event.result?).flatMap (UnitResult.shown dryRun) := by
  induction trace with
  | nil => rfl
  | cons event rest ih =>
    rw [List.flatMap_cons, List.filterMap_append, own_ofEvent, ih]
    cases hresult : event.result? with
    | none => simp [hresult]
    | some result => simp [hresult]

/-! ## Reading status lines -/

namespace Transcript

def begins (mark : Char) (line : String) : Bool := line.toList.head? = some mark

/-- A status line begins with the mark of an outcome. -/
def isStatus (line : String) : Bool := begins '✓' line || begins '-' line || begins '✗' line

/-- The name in a status line, which stands between the mark and the colon. -/
def unitOf (line : String) : String :=
  String.ofList ((line.toList.drop 2).takeWhile fun sign => sign != ':')

/-- The summary of what status lines say. -/
def summaryOf (status : List String) : String :=
  let completed := status.countP (begins '✓')
  let skipped := status.countP (begins '-')
  let failed := (status.filter (begins '✗')).map unitOf
  let counts := s!"{completed} completed, {skipped} skipped, {failed.length} failed"
  if failed.isEmpty then counts else counts ++ "\nFailed units: " ++ ", ".intercalate failed

def signOf : Outcome → Char
  | .completed => '✓'
  | .skipped _ => '-'
  | .failed _ => '✗'

theorem mark_eq_singleton (outcome : Outcome) : outcome.mark = String.singleton (signOf outcome) := by
  cases outcome <;> rfl

theorem toList_line (result : UnitResult) : result.line.toList = signOf result.outcome ::
    ' ' :: (result.name.toList ++ ':' :: ' ' :: result.outcome.describe.toList) := by
  simp [UnitResult.line, toString, mark_eq_singleton]

theorem begins_line (mark : Char) (result : UnitResult) :
    begins mark result.line = decide (signOf result.outcome = mark) := by
  simp [begins, toList_line]

theorem begins_line_completed (result : UnitResult) :
    begins '✓' result.line = result.outcome.isCompleted := by
  rw [begins_line]
  cases result.outcome <;> rfl

theorem begins_line_skipped (result : UnitResult) :
    begins '-' result.line = result.outcome.isSkipped := by
  rw [begins_line]
  cases result.outcome <;> rfl

theorem begins_line_failed (result : UnitResult) :
    begins '✗' result.line = result.outcome.isFailed := by
  rw [begins_line]
  cases result.outcome <;> rfl

theorem isStatus_line (result : UnitResult) : isStatus result.line = true := by
  simp only [isStatus, begins_line]
  cases result.outcome <;> rfl

theorem isStatus_action (action : String) : isStatus s!"    would {action}" = false := by
  simp [isStatus, begins, toString]

theorem unitOf_line {result : UnitResult} (h : ':' ∉ result.name.toList) :
    unitOf result.line = result.name := by
  have hname : ∀ sign ∈ result.name.toList, (sign != ':') = true := by
    intro sign hsign
    rw [bne_iff_ne]
    rintro rfl
    exact h hsign
  simp only [unitOf, toList_line, List.drop_succ_cons, List.drop_zero]
  rw [List.takeWhile_append_of_pos hname]
  simp

/-! ## Summaries -/

theorem filter_shown (dryRun : Bool) (results : List UnitResult) :
    (results.flatMap (UnitResult.shown dryRun)).filter isStatus = results.map UnitResult.line := by
  induction results with
  | nil => rfl
  | cons result rest ih =>
    have hshown : (result.shown dryRun).filter isStatus = [result.line] := by
      unfold UnitResult.shown
      rw [List.filter_cons_of_pos (isStatus_line result)]
      cases dryRun with
      | false => rfl
      | true =>
        rw [if_pos rfl, List.filter_map, Function.comp_def]
        simp [isStatus_action]
    rw [List.flatMap_cons, List.filter_append, hshown, ih]
    rfl

theorem summary_eq {report : Report} (h : ∀ result ∈ report.units, ':' ∉ result.name.toList) :
    report.summary = summaryOf (report.units.map UnitResult.line) := by
  have hcompleted : (report.units.map UnitResult.line).countP (begins '✓') = report.completed := by
    simp only [List.countP_map, Function.comp_def, begins_line_completed, Report.completed]
  have hskipped : (report.units.map UnitResult.line).countP (begins '-') = report.skipped := by
    simp only [List.countP_map, Function.comp_def, begins_line_skipped, Report.skipped]
  have hfailed : ((report.units.map UnitResult.line).filter (begins '✗')).map unitOf =
      report.failed := by
    simp only [List.filter_map, Function.comp_def, begins_line_failed, List.map_map, Report.failed]
    refine List.map_congr_left fun result hresult => ?_
    exact unitOf_line (h result ((List.mem_filter.mp hresult).1))
  have hnone : report.failed.isEmpty = !report.hasFailures := by
    rw [Bool.eq_iff_iff]
    simp [Report.failed, Report.hasFailures, List.isEmpty_iff, List.filter_eq_nil_iff]
  unfold Report.summary summaryOf
  simp only [hcompleted, hskipped, hfailed, hnone]
  cases report.hasFailures <;> simp

end Transcript

end Provision
