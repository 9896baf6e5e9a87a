import Provision.Proofs.Run.Tour

/-!
# Scenes

A trace shows of every event which unit is being visited then and in which step the visit is. All
that a step does happens in one scene.
-/

namespace Provision

/-- The unit that is being visited, and the step of the visit. -/
structure Scene where
  unit? : Option String := none
  step? : Option Step := none
deriving DecidableEq

def Scene.next (scene : Scene) : Event → Scene
  | .began unit => ⟨some unit, none⟩
  | .entered step => { scene with step? := some step }
  | _ => scene

def scene (trace : List Event) : Scene := trace.foldl Scene.next {}

@[simp] theorem scene_append_singleton (trace : List Event) (event : Event) :
    scene (trace ++ [event]) = (scene trace).next event := by
  simp [scene]

theorem scene_begin (session : Session) (unit : Installable) (forced : Bool) :
    scene (Work.begin session unit forced).session.trace = ⟨some unit.name, none⟩ :=
  scene_append_singleton _ _

theorem scene_enter (step : Step) (work : Work) : scene (work.enter step).session.trace =
    { scene work.session.trace with step? := some step } :=
  scene_append_singleton _ _

/-! ## Calls in their scenes -/

def placedFrom (here : Scene) : List Event → List (Scene × Call)
  | [] => []
  | event :: rest => (event.call?.map (here, ·)).toList ++ placedFrom (here.next event) rest

/-- The calls of a trace, each with the scene it is made in. -/
def placed (trace : List Event) : List (Scene × Call) := placedFrom {} trace

theorem placedFrom_append (here : Scene) (front back : List Event) :
    placedFrom here (front ++ back) =
      placedFrom here front ++ placedFrom (front.foldl Scene.next here) back := by
  induction front generalizing here with
  | nil => rfl
  | cons event rest ih => simp [placedFrom, ih]

theorem placed_append_singleton (trace : List Event) (event : Event) :
    placed (trace ++ [event]) = placed trace ++ (event.call?.map (scene trace, ·)).toList := by
  unfold placed
  rw [placedFrom_append]
  simp [placedFrom, scene]

theorem placedFrom_map_snd (here : Scene) (trace : List Event) :
    (placedFrom here trace).map Prod.snd = trace.filterMap Event.call? := by
  induction trace generalizing here with
  | nil => rfl
  | cons event rest ih =>
    cases hcall : event.call? <;> simp [placedFrom, hcall, ih]

theorem length_placed (session : Session) : (placed session.trace).length = session.calls.length := by
  rw [Session.calls, ← placedFrom_map_snd {}, List.length_map]
  rfl

/-- What has happened since has happened in one scene. -/
structure SameScene (before after : List Event) : Prop where
  here : scene after = scene before
  calls : ∃ made, placed after = placed before ++ made ∧ ∀ call ∈ made, call.1 = scene before

namespace SameScene

theorem refl (trace : List Event) : SameScene trace trace := ⟨rfl, [], by simp, by simp⟩

theorem snoc {before after : List Event} {event : Event} (h : SameScene before after)
    (hevent : ∀ here : Scene, here.next event = here) : SameScene before (after ++ [event]) := by
  obtain ⟨made, hmade, hcalls⟩ := h.calls
  refine ⟨by rw [scene_append_singleton, hevent, h.here], ?_⟩
  refine ⟨made ++ (event.call?.map (scene after, ·)).toList, ?_, ?_⟩
  · rw [placed_append_singleton, hmade, List.append_assoc]
  · intro call hcall
    rcases List.mem_append.mp hcall with hcall | hcall
    · exact hcalls call hcall
    · cases hmade : event.call? <;> simp_all [h.here]

end SameScene

theorem Move.sameScene {setting : Setting} {step : Step} {work next : Work} {before : List Event}
    (h : Move setting work step next) (hbefore : SameScene before work.session.trace) :
    SameScene before next.session.trace := by
  rcases h.trace_cases with htrace | ⟨event, htrace, hadds⟩ <;> rw [htrace]
  · exact hbefore
  · exact hbefore.snoc fun _ => by cases hadds <;> rfl

theorem Moves.sameScene {setting : Setting} {step : Step} {work next : Work}
    (h : Moves setting step work next) : SameScene work.session.trace next.session.trace :=
  h.preserves (P := fun next => SameScene work.session.trace next.session.trace)
    (fun _ _ hwork hmove => hmove.sameScene hwork) (.refl _)

/-! ## Visits that have begun -/

def Event.begun? : Event → Option String
  | .began unit => some unit
  | _ => none

/-- The names of the units whose visits have begun, first one first. -/
def begun (trace : List Event) : List String := trace.filterMap Event.begun?

@[simp] theorem begun_append (front back : List Event) :
    begun (front ++ back) = begun front ++ begun back :=
  List.filterMap_append

theorem begun_append_of_none {trace : List Event} {event : Event} (h : event.begun? = none) :
    begun (trace ++ [event]) = begun trace := by
  simp [begun, h]

theorem Move.begun {setting : Setting} {step : Step} {work next : Work}
    (h : Move setting work step next) :
    begun next.session.trace = Provision.begun work.session.trace := by
  rcases h.trace_cases with htrace | ⟨event, htrace, hadds⟩ <;> rw [htrace]
  exact begun_append_of_none (by cases hadds <;> rfl)

theorem begun_visit (setting : Setting) (session : Session) (unit : Installable) :
    begun (setting.visit session unit).session.trace = begun session.trace ++ [unit.name] := by
  have hvisited := visited setting session unit
  generalize setting.visit session unit = visit at hvisited ⊢
  cases hvisited with
  | interrupted | skipped => exact begun_append _ _
  | @worked forced final stop? free decided ran =>
    have hbegin : begun (Work.begin session unit forced).session.trace =
        begun session.trace ++ [unit.name] := begun_append _ _
    have hfinal : begun (Work.runSteps setting Step.all (.begin session unit forced)).1.session.trace =
        begun session.trace ++ [unit.name] := by
      refine runSteps_induction
        (Q := fun work => begun work.session.trace = begun session.trace ++ [unit.name])
        (P := fun _ work => begun work.session.trace = begun session.trace ++ [unit.name])
        ?_ ?_ (fun _ _ => id) hbegin
      · intro step work hwork
        exact (begun_append_of_none rfl).trans hwork
      · intro step work next hwork hmove
        exact hmove.begun.trans hwork
    rwa [ran] at hfinal

theorem begun_tour {setting : Setting} {strict : Bool} {session : Session}
    (units : List Installable) :
    begun (tour setting strict units session).session.trace = begun session.trace ++
      (tour setting strict units session).turns.map (·.unit.name) := by
  fun_induction tour setting strict units session with
  | case1 => simp
  | case2 unit rest session visit error herror => exact begun_visit setting session unit
  | case3 unit rest session visit own hown reported error habort =>
    exact (begun_append_of_none rfl).trans (begun_visit setting session unit)
  | case4 unit rest session visit own hown reported hgoes ih =>
    have hreported : begun reported.trace = begun session.trace ++ [unit.name] :=
      (begun_append_of_none rfl).trans (begun_visit setting session unit)
    rw [hreported] at ih
    simpa [Tour.cons] using ih

/-! ## Rules for traces -/

/-- Every event of the trace is allowed by the events before it. -/
def Follows (rule : List Event → Event → Prop) (trace : List Event) : Prop :=
  ∀ before event after, trace = before ++ event :: after → rule before event

theorem follows_nil (rule : List Event → Event → Prop) : Follows rule [] := by
  intro before event after h
  simp at h

theorem Follows.snoc {rule : List Event → Event → Prop} {trace : List Event} {event : Event}
    (h : Follows rule trace) (hevent : rule trace event) : Follows rule (trace ++ [event]) := by
  intro before other after hsplit
  rcases List.eq_nil_or_concat after with rfl | ⟨front, last, rfl⟩
  · obtain ⟨rfl, hlast⟩ := List.append_inj' hsplit rfl
    obtain rfl : event = other := by simpa using hlast
    exact hevent
  · refine h before other front ?_
    have hlonger : trace ++ [event] = (before ++ other :: front) ++ [last] := by
      simpa using hsplit
    exact (List.append_inj' hlonger rfl).1

end Provision
