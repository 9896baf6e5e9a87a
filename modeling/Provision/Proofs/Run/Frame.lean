import Provision.Proofs.Run.Forecast
import Provision.Proofs.Run.Launch

/-!
# What a run leaves alone

A run keeps the entries of its catalog, their order and all that a document declares. Of a unit that
is to be installed it may set the mark that the index must be refreshed, and the archive that it has
fetched for the unit itself; neither is ever taken back. So a plan is the same before and after.
-/

namespace Provision

/-- An event of a trace that has come since an earlier moment of it. -/
def Between (before after : List Event) (event : Event) : Prop :=
  ∃ more, after = before ++ more ∧ event ∈ more

theorem Between.mono {a b c d : List Event} {event : Event} (h : Between b c event)
    (hab : a <+: b) (hcd : c <+: d) : Between a d event := by
  obtain ⟨more, rfl, hmem⟩ := h
  obtain ⟨front, rfl⟩ := hab
  obtain ⟨back, rfl⟩ := hcd
  exact ⟨front ++ (more ++ back), by simp, by simp [hmem]⟩

theorem between_of_answered {setting : Setting} {call : Call} {work : Work} {answer : String}
    (h : (work.called setting call).session.Answered call answer) :
    ∃ shown, Between work.session.trace (work.called setting call).session.trace
      (.called call (.ok answer) shown) := by
  obtain ⟨before, shown, htrace⟩ := h
  refine ⟨shown, [.called call (.ok answer) shown], ?_, List.mem_cons_self⟩
  -- A call is one more event, so what stands before the answer is the trace before the call.
  obtain ⟨rfl, -⟩ := List.append_inj' htrace rfl
  exact htrace

/-! ## Units -/

/-- How a unit may change while a trace goes on from `first` to `last`. -/
structure Installable.Changes (first last : List Event) (before after : Installable) : Prop where
  declared : after.declared = before.declared
  refreshDue : before.refreshDue = true → after.refreshDue = true
  archive? : after.archive? = before.archive? ∨ ∃ url text shown, before.url? = some url ∧
    Between first last (.called (.fetch url) (.ok text) shown) ∧ after.archive? = some ⟨text⟩

namespace Installable.Changes

variable {p q r : List Event} {a b c : Installable}

theorem of_eq (h : b = a) : Changes p q a b := by
  rw [h]
  exact ⟨rfl, id, .inl rfl⟩

theorem mono (h : Changes q r a b) {first last : List Event} (hfirst : first <+: q)
    (hlast : r <+: last) : Changes first last a b := by
  refine ⟨h.declared, h.refreshDue, h.archive?.imp_right ?_⟩
  rintro ⟨url, text, shown, hurl, hfetched, harchive⟩
  exact ⟨url, text, shown, hurl, hfetched.mono hfirst hlast, harchive⟩

theorem trans (hab : Changes p q a b) (hbc : Changes q r b c) (hpq : p <+: q) (hqr : q <+: r) :
    Changes p r a c := by
  refine ⟨hbc.declared.trans hab.declared, hbc.refreshDue ∘ hab.refreshDue, ?_⟩
  rcases hbc.archive? with hkept | ⟨url, text, shown, hurl, hfetched, harchive⟩
  · rw [hkept]
    exact (hab.mono List.prefix_rfl hqr).archive?
  · have hsame : b.url? = a.url? := eq_of_declared_eq hab.declared _ fun _ => rfl
    exact .inr ⟨url, text, shown, hsame ▸ hurl, hfetched.mono hpq List.prefix_rfl, harchive⟩

end Installable.Changes

/-- How the unit at work has changed, and what has happened meanwhile. -/
structure Work.Changed (work next : Work) : Prop where
  trace : work.session.trace <+: next.session.trace
  unit : work.unit.Changes work.session.trace next.session.trace next.unit

namespace Work.Changed

variable {setting : Setting} {step : Step} {a b c work next : Work}

theorem trans (hab : Changed a b) (hbc : Changed b c) : Changed a c :=
  ⟨hab.trace.trans hbc.trace, hab.unit.trans hbc.unit hab.trace hbc.trace⟩

theorem of_unit_eq (htrace : work.session.trace <+: next.session.trace)
    (hunit : next.unit = work.unit) : Changed work next :=
  ⟨htrace, .of_eq hunit⟩

theorem refl (work : Work) : Changed work work := .of_unit_eq List.prefix_rfl rfl

theorem of_move (h : Move setting work step next) (hstep : step ≠ .retrieve) :
    Changed work next := by
  have htrace := h.kept.trace
  cases h with
  | call | record => exact .of_unit_eq htrace rfl
  | @source entry =>
    refine .of_unit_eq htrace ?_
    rcases work.putSource_cases entry with ⟨files, hput⟩ | ⟨files, message, hput, -⟩ <;> rw [hput]
  | @marker phase =>
    refine .of_unit_eq htrace ?_
    rcases work.leaveMarker_cases setting phase with
      ⟨files, path, hleave, -⟩ | ⟨files, failure, hleave, -⟩ <;> rw [hleave]
  | needRefresh => exact ⟨htrace, rfl, fun _ => rfl, .inl rfl⟩
  | hold => exact absurd rfl hstep

theorem retrieve (work : Work) : Changed work (work.retrieve setting).1 := by
  have htrace : work.session.trace <+: (work.retrieve setting).1.session.trace :=
    (Goes.retrieve work).moves.kept.trace
  refine ⟨htrace, ?_⟩
  unfold Work.retrieve at htrace ⊢
  split
  · exact .of_eq rfl
  · next url hurl =>
    split
    · exact .of_eq rfl
    · split
      · exact .of_eq rfl
      · rcases Goes.ask_cases setting .retrieve (.fetch url) work with
          ⟨text, hask, hfetched⟩ | ⟨failure, hask⟩
        · rw [hask]
          simp only
          obtain ⟨shown, hbetween⟩ := between_of_answered hfetched
          rcases Goes.ask_cases setting .retrieve (.nameOf ⟨text⟩)
            ((work.called setting (.fetch url)).record (.download url)) with
            ⟨package, hname, -⟩ | ⟨failure, hname⟩
          · rw [hname]
            simp only
            split
            · exact .of_eq rfl
            · refine ⟨rfl, id, .inr ⟨url, text, shown, hurl, ?_, rfl⟩⟩
              exact hbetween.mono List.prefix_rfl (List.prefix_append _ _)
          · rw [hname]
            exact .of_eq rfl
        · rw [hask]
          exact .of_eq rfl

theorem runTasks (setting : Setting) (step : Step) (work : Work) :
    Changed work (Work.runTasks setting (step.tasks work.unit) work).1 := by
  by_cases hstep : step = .retrieve
  · subst hstep
    rw [Step.tasks, runTasks_singleton]
    exact retrieve work
  · exact (moves_tasks setting step work).preserves
      (fun _ _ h hmove => h.trans (of_move hmove hstep)) (refl work)

theorem runSteps (setting : Setting) (steps : List Step) (work : Work) :
    Changed work (Work.runSteps setting steps work).1 :=
  runSteps_induction_of_tasks (Q := Changed work) (P := fun _ => Changed work)
    (fun step next h => h.trans (.of_unit_eq (kept_enter step next).trace rfl))
    (fun step _ next h => h.trans (runTasks setting step next)) (fun _ _ => id) (refl work)

end Work.Changed

/-! ## Entries -/

/-- What may become of an entry in a run, whose trace goes on from `first` to `last`. -/
structure Entry.Framed (setting : Setting) (first last : List Event) (before after : Entry) :
    Prop where
  line : after.line = before.line
  unit : before.unit.Changes first last after.unit
  /-- Nothing at all becomes of an entry that is skipped. -/
  skipped : (setting.criteria.judge before.unit setting.snapshot setting.hostname).isSkip = true →
    after = before

/-- What may have become of an entry after any number of runs. -/
structure Entry.Later (before after : Entry) : Prop where
  line : after.line = before.line
  declared : after.unit.declared = before.unit.declared
  refreshDue : before.unit.refreshDue = true → after.unit.refreshDue = true
  archive? : before.unit.archive?.isSome = true → after.unit.archive?.isSome = true

theorem forall₂_trans {α : Type} {R S T : α → α → Prop} (h : ∀ a b c, R a b → S b c → T a c)
    {xs ys zs : List α} (hxy : List.Forall₂ R xs ys) (hyz : List.Forall₂ S ys zs) :
    List.Forall₂ T xs zs := by
  induction hxy generalizing zs with
  | nil =>
    cases hyz
    exact .nil
  | cons hfirst _ ih =>
    cases hyz with
    | cons hnext hrest => exact .cons (h _ _ _ hfirst hnext) (ih hrest)

section

variable {setting : Setting} {strict : Bool} {p q r : List Event} {a b c : Entry}

namespace Entry.Framed

theorem refl (entry : Entry) : Framed setting p q entry entry := ⟨rfl, .of_eq rfl, fun _ => rfl⟩

theorem trans (hab : Framed setting p q a b) (hbc : Framed setting q r b c) (hpq : p <+: q)
    (hqr : q <+: r) : Framed setting p r a c := by
  refine ⟨hbc.line.trans hab.line, hab.unit.trans hbc.unit hpq hqr, fun hskip => ?_⟩
  obtain rfl := hab.skipped hskip
  exact hbc.skipped hskip

theorem later (h : Framed setting p q a b) : Later a b := by
  refine ⟨h.line, h.unit.declared, h.unit.refreshDue, fun hheld => ?_⟩
  rcases h.unit.archive? with hkept | ⟨_, _, _, -, -, harchive⟩
  · rwa [hkept]
  · rw [harchive]
    rfl

end Entry.Framed

namespace Entry.Later

theorem refl (entry : Entry) : Later entry entry := ⟨rfl, rfl, id, id⟩

theorem trans (hab : Later a b) (hbc : Later b c) : Later a c :=
  ⟨hbc.line.trans hab.line, hbc.declared.trans hab.declared, hbc.refreshDue ∘ hab.refreshDue,
    hbc.archive? ∘ hab.archive?⟩

end Entry.Later

/-! ## Visits and tours -/

theorem visit_changed (setting : Setting) (session : Session) (unit : Installable) :
    unit.Changes session.trace (setting.visit session unit).session.trace
      (setting.visit session unit).unit := by
  have hvisited := visited setting session unit
  generalize setting.visit session unit = visit at hvisited ⊢
  cases hvisited with
  | interrupted | skipped => exact .of_eq rfl
  | @worked forced final stop? free decided ran =>
    have hfinal := Work.Changed.runSteps setting Step.all (.begin session unit forced)
    rw [ran] at hfinal
    exact hfinal.unit.mono (List.prefix_append _ _) List.prefix_rfl

theorem prefix_of_turn {session : Session} {units : List Installable} {turn : Turn}
    (h : turn ∈ (tour setting strict units session).turns) :
    session.trace <+: turn.session.trace ∧ (turn.visit setting).session.trace <+:
      (tour setting strict units session).session.trace := by
  fun_induction tour setting strict units session with
  | case1 => cases h
  | case2 unit rest session visit error herror =>
    obtain rfl := List.mem_singleton.mp h
    exact ⟨List.prefix_rfl, List.prefix_rfl⟩
  | case3 unit rest session visit result hresult reported error habort =>
    obtain rfl := List.mem_singleton.mp h
    exact ⟨List.prefix_rfl, List.prefix_append _ _⟩
  | case4 unit rest session visit result hresult reported hgoes ih =>
    have hreported : visit.session.trace <+: reported.trace := List.prefix_append _ _
    rcases List.mem_cons.mp h with rfl | h
    · exact ⟨List.prefix_rfl, hreported.trans (trace_prefix_tour rest)⟩
    · obtain ⟨hfirst, hlast⟩ := ih h
      exact ⟨((visit_kept setting session unit).trace.trans hreported).trans hfirst, hlast⟩

theorem Entry.Left.framed {session : Session} {units : List Installable}
    (h : Entry.Left setting (tour setting strict units session).turns a b) :
    Entry.Framed setting session.trace (tour setting strict units session).session.trace a b := by
  rcases h with rfl | ⟨turn, hturn, hunit, rfl⟩
  · exact .refl _
  · obtain ⟨hfirst, hlast⟩ := prefix_of_turn hturn
    refine ⟨rfl, ?_, fun hskip => ?_⟩
    · rw [← hunit]
      exact (visit_changed setting turn.session turn.unit).mono hfirst hlast
    · cases hdecision : setting.criteria.judge a.unit setting.snapshot setting.hostname with
      | install forced =>
        rw [hdecision] at hskip
        cases hskip
      | skip cause =>
        rw [Turn.visit, hunit, visit_unit_of_skip hdecision]

/-! ## Runs -/

namespace RunState

/-- What a run may make of its entries, from one state to a later one. -/
structure Framed (setting : Setting) (before after : RunState) : Prop where
  trace : before.session.trace <+: after.session.trace
  entries : List.Forall₂ (Entry.Framed setting before.session.trace after.session.trace)
    before.catalog.entries after.catalog.entries

theorem Framed.refl (state : RunState) : Framed setting state state :=
  ⟨List.prefix_rfl, List.forall₂_same.mpr fun entry _ => .refl entry⟩

theorem Framed.trans {a b c : RunState} (hab : Framed setting a b) (hbc : Framed setting b c) :
    Framed setting a c :=
  ⟨hab.trace.trans hbc.trace,
    forall₂_trans (fun _ _ _ h hnext => h.trans hnext hab.trace hbc.trace) hab.entries hbc.entries⟩

variable (setting strict)

theorem framed_runBucket (bucket : Bucket) (state : RunState) :
    Framed setting state (state.runBucket setting strict bucket).1 := by
  have hran : LedBy setting state (state.runBucket setting strict bucket).1 _ _ :=
    runBucket_ledBy bucket state
  constructor
  · rw [hran.session]
    exact trace_prefix_tour _
  · rw [hran.session]
    exact hran.entries.imp fun _ _ => Entry.Left.framed

/-- A unit may be in two buckets, so its changes in one stage come before those in another. -/
theorem framed_runStages (stages : List Stage) (state : RunState) :
    Framed setting state (runStages setting strict stages state).1 := by
  induction stages generalizing state with
  | nil => exact .refl state
  | cons stage rest ih =>
    have hentered : Framed setting state { state with progress := state.progress.enter stage } :=
      ⟨List.prefix_rfl, List.forall₂_same.mpr fun entry _ => .refl entry⟩
    unfold runStages
    cases stage.bucket? with
    | none => exact hentered.trans (ih _)
    | some bucket =>
      have hran := hentered.trans (framed_runBucket setting strict bucket _)
      simp only
      split
      · next ran heq =>
        rw [heq] at hran
        exact hran.trans (ih ran)
      · next ran error heq =>
        rw [heq] at hran
        exact hran

theorem framed_run (state : RunState) : Framed setting state (run setting strict state).1 := by
  rw [run_fst]
  exact framed_runStages setting strict _ state

end RunState

end

/-! ## Plans -/

theorem plan_declared (catalog : Catalog) (criteria : Criteria) (snapshot : Snapshot)
    (hostname : String) :
    plan catalog.declared criteria snapshot hostname = plan catalog criteria snapshot hostname := by
  have hbucket (unit : Installable) : Catalog.inBucket unit.declared = Catalog.inBucket unit :=
    inBucket_of_declared_eq unit.declared_declared
  have hview (bucket : Bucket) : catalog.declared.view bucket =
      (catalog.view bucket).map fun entry => { entry with unit := entry.unit.declared } := by
    simp only [Catalog.view, Catalog.declared, List.filter_map, Function.comp_def, hbucket]
  simp only [plan, Catalog.runOrder, hview, List.map_flatMap, List.map_map, Function.comp_def,
    Installable.name_declared, Installable.bucket_declared, Criteria.judge_declared]

/-! ## Runs of one catalog -/

/-- A run, but for the catalog that it finds. -/
structure Occasion where
  setting : Setting
  strict : Bool := false
  progress : Progress := {}
  session : Session

namespace Catalog

/-- The catalog as a run leaves it, whatever the result of the run is. -/
def after (catalog : Catalog) (occasion : Occasion) : Catalog :=
  (RunState.run occasion.setting occasion.strict
    { progress := occasion.progress, catalog, session := occasion.session }).1.catalog

def afterAll (catalog : Catalog) (occasions : List Occasion) : Catalog :=
  occasions.foldl after catalog

/-- A catalog and what runs of it have left. -/
structure Lasts (before after : Catalog) : Prop where
  entries : List.Forall₂ Entry.Later before.entries after.entries
  plan : ∀ criteria snapshot hostname,
    plan after criteria snapshot hostname = plan before criteria snapshot hostname

theorem lasts_of_later {before after : Catalog}
    (h : List.Forall₂ Entry.Later before.entries after.entries) : Lasts before after := by
  refine ⟨h, fun criteria snapshot hostname => ?_⟩
  have hdeclared : after.declared = before.declared :=
    declared_congr (h.imp fun _ _ hlater => ⟨hlater.line, hlater.declared⟩)
  rw [← plan_declared after, hdeclared, plan_declared]

end Catalog

theorem later_afterAll (catalog : Catalog) (occasions : List Occasion) :
    List.Forall₂ Entry.Later catalog.entries (catalog.afterAll occasions).entries := by
  induction occasions generalizing catalog with
  | nil => exact List.forall₂_same.mpr fun entry _ => .refl entry
  | cons occasion rest ih =>
    have hran := (RunState.framed_run occasion.setting occasion.strict
      { progress := occasion.progress, catalog, session := occasion.session }).entries
    exact forall₂_trans (fun _ _ _ h hnext => h.later.trans hnext) hran (ih (catalog.after occasion))

/-- A run, wherever it ends, changes nothing but two marks of the units that it installs, and no
sequence of runs changes a plan. -/
theorem runs_keep_frame :
    (∀ setting strict state,
      RunState.Framed setting state (RunState.run setting strict state).1) ∧
    ∀ (catalog : Catalog) occasions, catalog.Lasts (catalog.afterAll occasions) :=
  ⟨RunState.framed_run, fun catalog occasions =>
    Catalog.lasts_of_later (later_afterAll catalog occasions)⟩

end Provision
