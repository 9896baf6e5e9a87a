import Provision.Proofs.Run.Account

/-!
# Abrupt ends

A signal that arrives when an interrupt has arrived before ends the program at once. This happens
with a call, and what has happened by then is the first part of what a run would have done.
-/

namespace Provision

/-- The call with which the program ends: until then it has not, and while the call is at work a
signal arrives that is not the first one. -/
structure AbruptEnd.CameWith (collaborators : Collaborators) (ending : AbruptEnd)
    (before : Session) (call : Call) : Prop where
  running : before.abruptEnd? = none
  fatal : Signal.fatal? before.interrupted
    (collaborators.respond before.calls call before.files).signals = some ending.signal
  files : ending.files = (before.request collaborators call).1.files
  trace : ending.trace = (before.request collaborators call).1.trace

/-- The program has ended with a call of a session, which has gone on from there. -/
structure AbruptEnd.Within (collaborators : Collaborators) (session : Session)
    (ending : AbruptEnd) : Prop where
  came : ∃ before call, ending.CameWith collaborators before call
  trace : ending.trace <+: session.trace

/-- If the program has ended in a session, then with one of its calls. -/
def Session.KnowsEnd (collaborators : Collaborators) (session : Session) : Prop :=
  ∀ ending, session.abruptEnd? = some ending → ending.Within collaborators session

section

variable {setting : Setting} {session next : Session}

/-- What goes on without a call does not end the program. -/
theorem Session.KnowsEnd.of_prefix {collaborators : Collaborators} (h : session.KnowsEnd collaborators)
    (hend : next.abruptEnd? = session.abruptEnd?) (htrace : session.trace <+: next.trace) :
    next.KnowsEnd collaborators := by
  intro ending hending
  obtain ⟨hcame, hprefix⟩ := h ending (hend ▸ hending)
  exact ⟨hcame, hprefix.trans htrace⟩

theorem Session.KnowsEnd.request {collaborators : Collaborators}
    (h : session.KnowsEnd collaborators) (call : Call) :
    (session.request collaborators call).1.KnowsEnd collaborators := by
  intro ending hending
  cases hrunning : session.abruptEnd? with
  | some earlier =>
    have hsame : (session.request collaborators call).1.abruptEnd? = some earlier := by
      simp [Session.request, Session.endBy, Session.note, hrunning]
    obtain rfl := Option.some.inj (hsame.symm.trans hending)
    obtain ⟨hcame, hprefix⟩ := h earlier hrunning
    exact ⟨hcame, hprefix.trans (List.prefix_append _ _)⟩
  | none =>
    simp only [Session.request, Session.endBy, Session.note, hrunning, Option.none_or,
      Option.map_eq_some_iff] at hending
    obtain ⟨signal, hfatal, rfl⟩ := hending
    exact ⟨⟨session, call, hrunning, hfatal, rfl, rfl⟩, List.prefix_rfl⟩

theorem Session.KnowsEnd.move {work after : Work} {step : Step}
    (h : work.session.KnowsEnd setting.collaborators) (hmove : Move setting work step after) :
    after.session.KnowsEnd setting.collaborators := by
  have htrace := hmove.kept.trace
  cases hmove with
  | call => exact h.request _
  | @source entry =>
    refine h.of_prefix ?_ htrace
    rcases work.putSource_cases entry with ⟨files, hput⟩ | ⟨files, message, hput, -⟩
    · rw [hput]
      rfl
    · rw [hput]
  | @marker phase =>
    refine h.of_prefix ?_ htrace
    rcases work.leaveMarker_cases setting phase with
      ⟨files, path, hput, -⟩ | ⟨files, failure, hput, -⟩
    · rw [hput]
      rfl
    · rw [hput]
  | record | needRefresh | hold => exact h

/-- A run that a signal has ended abruptly was ended by one of its calls, and what had happened by
then is the first part of its trace. -/
theorem within_of_run {sourcesDir : Path} {catalog : Catalog} (h : catalog.WellFormed sourcesDir)
    (setting : Setting) (strict : Bool) (files : Files) (interrupted : Bool) {ending : AbruptEnd}
    (hended : (RunState.run setting strict
      { catalog, session := { files, interrupted } }).1.session.abruptEnd? = some ending) :
    ending.Within setting.collaborators
      (RunState.run setting strict { catalog, session := { files, interrupted } }).1.session := by
  have hnoted {event : Event} (session : Session) (h : session.KnowsEnd setting.collaborators) :
      (session.note event).KnowsEnd setting.collaborators :=
    h.of_prefix rfl (List.prefix_append _ _)
  have hknows : Session.KnowsEnd setting.collaborators
      (RunState.run setting strict { catalog, session := { files, interrupted } }).1.session := by
    rw [(ledBy_of_fresh h setting strict files interrupted).session]
    refine tour_preserves (fun unit _ session hsession => ?_) (fun session _ => hnoted session) ?_
    · exact visit_preserves hsession hnoted (fun _ => hnoted) fun _ _ _ => Session.KnowsEnd.move
    · intro ending hending
      cases hending
  exact hknows ending hended

end

end Provision
