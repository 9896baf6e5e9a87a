import Provision.Proofs.Run.Marker
import Provision.Proofs.Run.Payload

/-!
# The log of a step

What a step of a real run leaves in the trace: deeds, which are what it has done with success, and
at the end perhaps a call that has failed. The step records an action for every deed that has an
effect, and none for anything else.
-/

namespace Provision

/-! ## Deeds -/

/-- What a step does with success. -/
inductive Deed : Step → Event → Prop
  | added (identifier answer : String) (shown : ByteArray) :
      Deed .repositories (.called (.addRepository identifier) (.ok answer) shown)
  | wrote (path : Path) : Deed .sources (.wroteSource path)
  | refreshed (answer : String) (shown : ByteArray) :
      Deed .refreshIndex (.called .refreshIndex (.ok answer) shown)
  | ran (phase : Phase) (text answer : String) (shown : ByteArray) :
      Deed (.ofPhase phase) (.called (.runScript text) (.ok answer) shown)
  | marked (phase : Phase) (path : Path) : Deed (.ofPhase phase) (.createdMarker path)
  | fetched (url text : String) (shown : ByteArray) :
      Deed .retrieve (.called (.fetch url) (.ok text) shown)
  | named (archive : Path) (package : String) (shown : ByteArray) :
      Deed .retrieve (.called (.nameOf archive) (.ok package) shown)
  | installed (archive : Path) (answer : String) (shown : ByteArray) :
      Deed .install (.called (.installArchive archive) (.ok answer) shown)
  | reinstalled (package answer : String) (shown : ByteArray) :
      Deed .install (.called (.reinstall package) (.ok answer) shown)

def Step.phase? : Step → Option Phase
  | preScript => some .pre
  | postScript => some .post
  | _ => none

@[simp] theorem Step.phase?_ofPhase (phase : Phase) : (Step.ofPhase phase).phase? = some phase := by
  cases phase <;> rfl

namespace Event

def answered? : Event → Option Answered
  | called call result _ => some (call, result)
  | _ => none

/-- After the event the package index is out of date. -/
def renews : Event → Bool
  | called (.addRepository _) (.ok _) _ => true
  | wroteSource _ => true
  | _ => false

/-- What an event has changed outside, if it belongs to this step. -/
def effect? (step? : Option Step) : Event → Option Action
  | called (.addRepository identifier) (.ok _) _ => some (.addRepository identifier)
  | called .refreshIndex (.ok _) _ => some .refreshIndex
  | called (.runScript _) (.ok _) _ => (step?.bind Step.phase?).map .runScript
  | called (.fetch url) (.ok _) _ => some (.download url)
  | called (.installArchive archive) (.ok _) _ => some (.installArchive archive)
  | called (.reinstall package) (.ok _) _ => some (.installPackage package)
  | wroteSource path => some (.writeSource path)
  | createdMarker path => some (.createMarker path)
  | _ => none

end Event

def answered (events : List Event) : List Answered := events.filterMap Event.answered?

@[simp] theorem answered_append (front back : List Event) :
    answered (front ++ back) = answered front ++ answered back :=
  List.filterMap_append

theorem filterMap_singleton {α β : Type} (f : α → Option β) (a : α) :
    [a].filterMap f = (f a).toList := by
  cases h : f a <;> simp [h]

/-! ## The calls of a step -/

/-- The archive is fetched, and then asked for its name. -/
inductive Retrieval : Option String → List Answered → Prop
  | spared {url? : Option String} : Retrieval url? []
  | failed {url : String} {failure : Failure} : Retrieval (some url) [(.fetch url, .error failure)]
  | fetched {url text : String} {result : Except Failure String} :
      Retrieval (some url) [(.fetch url, .ok text), (.nameOf ⟨text⟩, result)]

/-- An archive is installed or a package, and not both. -/
inductive Installing (package : String) : List Answered → Prop
  | spared : Installing package []
  | archive (archive : Path) (result : Except Failure String) :
      Installing package [(.installArchive archive, result)]
  | package (result : Except Failure String) : Installing package [(.reinstall package, result)]

/-- The calls that a step of a unit makes, in their order. -/
def Step.Asks (unit : Installable) : Step → List Answered → Prop
  | repositories, made => made.map Prod.fst <+: unit.repositories.map .addRepository
  | sources, made => made = []
  | refreshIndex, made => made.map Prod.fst <+: [.refreshIndex]
  | preScript, made => made.map Prod.fst <+: (unit.script? .pre).toList.map .runScript
  | retrieve, made => Retrieval unit.url? made
  | install, made => Installing unit.package made
  | postScript, made => made.map Prod.fst <+: (unit.script? .post).toList.map .runScript

@[simp] theorem Step.asks_declared (unit : Installable) (step : Step) :
    step.Asks unit.declared = step.Asks unit := by
  cases step <;> rfl

theorem Step.asks_nil (unit : Installable) (step : Step) : step.Asks unit [] := by
  cases step with
  | repositories | refreshIndex | preScript | postScript => exact List.nil_prefix
  | sources => rfl
  | retrieve => exact .spared
  | install => exact .spared

/-! ## Ends of a step -/

/-- How a step ends, and what it leaves in the trace at the end: only a call that has failed. -/
inductive Halts (final : Work) : Step → List Event → Option Stop → Prop
  | done {step : Step} : Halts final step [] none
  | refused {step : Step} (call : Call) (failure : Failure) (shown : ByteArray) :
      Halts final step [.called call (.error failure) shown] (some (Work.fail step failure))
  | unwritten {entry : SourceFile} {before : Files} {message : String}
      (declared : entry ∈ final.unit.sources) (missing : before.exists? entry.path = false)
      (fault : Unwritten entry before final.session.files message) :
      Halts final .sources [] (some (.failed ⟨.sources, message⟩))
  | skipped {step : Step} (cause : SkipCause) : Halts final step [] (some (.skipped cause))
  | fatal {step : Step} (error : RunError) : Halts final step [] (some (.fatal error))

/-- What a step has done so far, and how it has ended. -/
structure Log (step : Step) (work : Work) (ran : Work × Option Stop) (deeds last : List Event) :
    Prop where
  trace : ran.1.session.trace = work.session.trace ++ (deeds ++ last)
  done : ∀ event ∈ deeds, Deed step event
  due : ran.1.unit.refreshDue = (work.unit.refreshDue || deeds.any Event.renews)
  actions : (∀ error, ran.2 ≠ some (.fatal error)) →
    ran.1.actions = work.actions ++ deeds.filterMap (Event.effect? (some step))
  halts : Halts ran.1 step last ran.2

namespace Log

variable {setting : Setting} {step : Step} {work mid : Work} {ran : Work × Option Stop}
  {deeds more last : List Event} {call : Call}

theorem nil (step : Step) (work : Work) : Log step work (work, none) [] [] :=
  ⟨by simp, by simp, by simp, by simp, .done⟩

theorem last_eq_nil (h : Log step work (mid, none) deeds last) : last = [] := by
  cases h.halts
  rfl

theorem trans (h : Log step work (mid, none) deeds []) (hran : Log step mid ran more last) :
    Log step work ran (deeds ++ more) last where
  trace := by
    have htrace : mid.session.trace = _ := h.trace
    simp [hran.trace, htrace]
  done := List.forall_mem_append.mpr ⟨h.done, hran.done⟩
  due := by
    have hdue : mid.unit.refreshDue = _ := h.due
    rw [hran.due, hdue, List.any_append, Bool.or_assoc]
  actions hstop := by
    have hactions : mid.actions = _ := h.actions (by simp)
    rw [hran.actions hstop, hactions, List.filterMap_append, List.append_assoc]
  halts := hran.halts

/-! ## Calls -/

/-- A call is answered, and what is recorded for it is what it has done; or it fails, and the step
with it. -/
theorem ask_cases (setting : Setting) (step : Step) (call : Call) (work : Work) :
    (∃ answer shown, work.ask setting step call = (work.called setting call, .ok answer) ∧
      (work.called setting call).session.trace =
        work.session.trace ++ [.called call (.ok answer) shown]) ∨
    ∃ failure shown, work.ask setting step call =
        (work.called setting call, .error (Work.fail step failure)) ∧
      (work.called setting call).session.trace =
        work.session.trace ++ [.called call (.error failure) shown] := by
  rw [Work.ask_eq]
  cases hresult : (work.session.request setting.collaborators call).2 with
  | ok answer =>
    refine .inl ⟨answer, (setting.collaborators.respond work.session.calls call
      work.session.files).shown, rfl, ?_⟩
    rw [← hresult]
    rfl
  | error failure =>
    refine .inr ⟨failure, (setting.collaborators.respond work.session.calls call
      work.session.files).shown, rfl, ?_⟩
    rw [← hresult]
    rfl

theorem refused {failure : Failure} {shown : ByteArray}
    (htrace : (work.called setting call).session.trace =
      work.session.trace ++ [.called call (.error failure) shown]) :
    Log step work (work.called setting call, some (Work.fail step failure)) []
      [.called call (.error failure) shown] :=
  ⟨htrace, by simp, by simp [Work.called], by simp [Work.called], .refused call failure shown⟩

/-- A call that is the whole task: what is recorded after it is what it has done. -/
theorem tell (setting : Setting) (finish : Work → Work) (work : Work)
    (hdeed : ∀ answer shown, Deed step (.called call (.ok answer) shown))
    (hsession : ∀ next, (finish next).session = next.session)
    (hdue : ∀ next answer shown, (finish next).unit.refreshDue =
      (next.unit.refreshDue || Event.renews (.called call (.ok answer) shown)))
    (hactions : ∀ next answer shown, (finish next).actions =
      next.actions ++ (Event.effect? (some step) (.called call (.ok answer) shown)).toList) :
    ∃ deeds last result, Log step work
        (match work.tell setting step call with
          | (told, none) => (finish told, none)
          | (told, some stop) => (told, some stop)) deeds last ∧
      answered (deeds ++ last) = [(call, result)] := by
  unfold Work.tell
  rcases ask_cases setting step call work with
    ⟨answer, shown, hask, htrace⟩ | ⟨failure, shown, hask, htrace⟩ <;> rw [hask]
  · refine ⟨[.called call (.ok answer) shown], [], .ok answer, ⟨?_, ?_, ?_, ?_, .done⟩, rfl⟩
    · exact (congrArg Session.trace (hsession _)).trans htrace
    · exact List.forall_mem_singleton.mpr (hdeed answer shown)
    · rw [List.any_cons, List.any_nil, Bool.or_false]
      exact hdue (work.called setting call) answer shown
    · intro _
      rw [filterMap_singleton]
      exact hactions (work.called setting call) answer shown
  · exact ⟨[], [.called call (.error failure) shown], .error failure, refused htrace, rfl⟩

/-! ## Tasks -/

theorem addRepository (hreal : setting.dryRun = false) (identifier : String) (work : Work) :
    ∃ deeds last result, Log .repositories work (work.addRepository setting identifier) deeds last ∧
      answered (deeds ++ last) = [(.addRepository identifier, result)] := by
  unfold Work.addRepository Work.really
  rw [hreal]
  exact tell setting _ work (.added identifier) (fun _ => rfl)
    (fun _ _ _ => by simp [Work.needRefresh, Event.renews]) fun _ _ _ => rfl

theorem writeSource (hreal : setting.dryRun = false) {entry : SourceFile} (work : Work)
    (hentry : entry ∈ work.unit.sources) :
    ∃ deeds last, Log .sources work (work.writeSource setting entry) deeds last ∧
      answered (deeds ++ last) = [] := by
  unfold Work.writeSource
  split
  · exact ⟨[], [], nil _ _, rfl⟩
  · next hmissing =>
    unfold Work.really
    simp only [hreal, Bool.false_eq_true, if_false]
    rcases work.putSource_cases entry with ⟨files, hput⟩ | ⟨files, message, hput, hfault⟩ <;>
      rw [hput]
    · refine ⟨[.wroteSource entry.path], [], ⟨rfl, ?_, ?_, ?_, .done⟩, rfl⟩
      · exact List.forall_mem_singleton.mpr (.wrote entry.path)
      · simp [Work.needRefresh, Event.renews]
      · intro _
        rfl
    · exact ⟨[], [], ⟨by simp, by simp, by simp, by simp,
        .unwritten hentry (by simpa using hmissing) hfault⟩, rfl⟩

theorem refreshIndex (hreal : setting.dryRun = false) (work : Work) :
    ∃ deeds last, Log .refreshIndex work (work.refreshIndex setting) deeds last ∧
      (answered (deeds ++ last)).map Prod.fst =
        if work.unit.refreshDue then [.refreshIndex] else [] := by
  unfold Work.refreshIndex
  split
  · next hdue =>
    unfold Work.really
    rw [hreal]
    obtain ⟨deeds, last, result, hlog, hmade⟩ :=
      tell setting (Work.record · .refreshIndex) work .refreshed (fun _ => rfl)
        (fun _ _ _ => by simp [Work.record, Event.renews]) fun _ _ _ => rfl
    exact ⟨deeds, last, hlog, by rw [hmade]; rfl⟩
  · exact ⟨[], [], nil _ _, rfl⟩

theorem runScript (hreal : setting.dryRun = false) (phase : Phase) (work : Work) :
    ∃ deeds last, Log (.ofPhase phase) work (work.runScript setting phase) deeds last ∧
      (answered (deeds ++ last)).map Prod.fst <+:
        (work.unit.script? phase).toList.map .runScript := by
  unfold Work.runScript
  cases hscript : work.unit.script? phase with
  | none => exact ⟨[], [], nil _ _, List.nil_prefix⟩
  | some text =>
    simp only
    split
    · exact ⟨[], [], nil _ _, List.nil_prefix⟩
    · unfold Work.really Work.tell
      simp only [hreal, Bool.false_eq_true, if_false]
      rcases ask_cases setting (.ofPhase phase) (.runScript text) work with
        ⟨answer, shown, hask, htrace⟩ | ⟨failure, shown, hask, htrace⟩ <;> rw [hask] <;> simp only
      · cases honce : work.unit.isOnce phase with
        | false =>
          simp only [Bool.false_eq_true, if_false]
          refine ⟨[.called (.runScript text) (.ok answer) shown], [], ⟨htrace, ?_, ?_, ?_, .done⟩,
            List.prefix_rfl⟩
          · exact List.forall_mem_singleton.mpr (.ran phase text answer shown)
          · simp [Work.record, Work.called, Event.renews]
          · intro _
            simp [Work.record, Work.called, Event.effect?]
        | true =>
          simp only [if_true]
          rcases (work.called setting (.runScript text)).leaveMarker_cases setting phase with
            ⟨files, path, hleave, hcreate⟩ | ⟨files, failure, hleave, -⟩ <;>
            rw [hleave] <;> simp only
          · obtain rfl := MarkerStore.create_snd_eq_ok (congrArg Prod.snd hcreate)
            refine ⟨[.called (.runScript text) (.ok answer) shown,
              .createdMarker (setting.markers.path work.unit.name phase)], [],
              ⟨?_, ?_, ?_, ?_, .done⟩, List.prefix_rfl⟩
            · simp [Work.record, Session.note, htrace]
              rfl
            · simpa using ⟨.ran phase text answer shown, .marked phase _⟩
            · simp [Work.record, Work.called, Event.renews]
            · intro _
              simp [Work.record, Work.called, Event.effect?]
          · refine ⟨[.called (.runScript text) (.ok answer) shown], [],
              ⟨htrace, ?_, ?_, ?_, .fatal _⟩, List.prefix_rfl⟩
            · exact List.forall_mem_singleton.mpr (.ran phase text answer shown)
            · simp [Work.called, Event.renews]
            · simp
      · exact ⟨[], [.called (.runScript text) (.error failure) shown], refused htrace,
          List.prefix_rfl⟩

theorem retrieve (hreal : setting.dryRun = false) (work : Work) :
    ∃ deeds last, Log .retrieve work (work.retrieve setting) deeds last ∧
      Retrieval work.unit.url? (answered (deeds ++ last)) := by
  unfold Work.retrieve
  cases work.unit.url? with
  | none => exact ⟨[], [], nil _ _, .spared⟩
  | some url =>
    simp only
    split
    · exact ⟨[], [], nil _ _, .spared⟩
    simp only [hreal, Bool.false_eq_true, if_false]
    rcases ask_cases setting .retrieve (.fetch url) work with
      ⟨text, shown, hask, htrace⟩ | ⟨failure, shown, hask, htrace⟩ <;> rw [hask] <;> simp only
    · have hfetched : Log .retrieve work ((work.called setting (.fetch url)).record (.download url),
          none) [.called (.fetch url) (.ok text) shown] [] :=
        ⟨htrace, by simpa using .fetched url text shown,
          by simp [Work.called, Work.record, Event.renews],
          by simp [Work.called, Work.record, Event.effect?], .done⟩
      rcases ask_cases setting .retrieve (.nameOf ⟨text⟩)
          ((work.called setting (.fetch url)).record (.download url)) with
        ⟨package, shown', hask, htrace⟩ | ⟨failure, shown', hask, htrace⟩ <;>
        rw [hask] <;> simp only
      · have hdeed : ∀ event ∈ [Event.called (.nameOf ⟨text⟩) (.ok package) shown'],
            Deed .retrieve event := by simpa using .named ⟨text⟩ package shown'
        split
        · exact ⟨_, _, hfetched.trans ⟨htrace, hdeed, by simp [Work.called, Event.renews],
            by simp [Work.called, Event.effect?], .skipped _⟩, .fetched⟩
        · exact ⟨_, _, hfetched.trans ⟨htrace, hdeed, by simp [Work.called, Event.renews],
            by simp [Work.called, Event.effect?], .done⟩, .fetched⟩
      · exact ⟨_, _, hfetched.trans (refused htrace), .fetched⟩
    · exact ⟨_, _, refused htrace, .failed⟩

theorem installPayload (hreal : setting.dryRun = false) (work : Work) :
    ∃ deeds last, Log .install work (work.installPayload setting) deeds last ∧
      Installing work.unit.package (answered (deeds ++ last)) := by
  unfold Work.installPayload
  cases work.unit.delivery with
  | downloadedArchive =>
    simp only
    cases work.unit.archive? with
    | none =>
      simp only [hreal, Bool.false_eq_true, if_false]
      exact ⟨[], [], nil _ _, .spared⟩
    | some archive =>
      obtain ⟨deeds, last, result, hlog, hmade⟩ :=
        tell setting (Work.record · (.installArchive archive)) work (.installed archive)
          (fun _ => rfl) (fun _ _ _ => by simp [Work.record, Event.renews]) fun _ _ _ => rfl
      exact ⟨deeds, last, hlog, hmade ▸ .archive archive result⟩
  | packageManager =>
    simp only
    split
    · exact ⟨[], [], nil _ _, .spared⟩
    · unfold Work.really
      rw [hreal]
      obtain ⟨deeds, last, result, hlog, hmade⟩ :=
        tell setting (Work.record · (.installPackage work.unit.package)) work (.reinstalled _)
          (fun _ => rfl) (fun _ _ _ => by simp [Work.record, Event.renews]) fun _ _ _ => rfl
      exact ⟨deeds, last, hlog, hmade ▸ .package result⟩

/-! ## Steps -/

theorem runTasks_cons (task : Task) (rest : List Task)
    (h : Log step work (task.run setting work) deeds last) :
    (last = [] ∧ ∃ mid, task.run setting work = (mid, none) ∧ Log step work (mid, none) deeds [] ∧
      Work.runTasks setting (task :: rest) work = Work.runTasks setting rest mid) ∨
    Log step work (Work.runTasks setting (task :: rest) work) deeds last := by
  rw [Work.runTasks]
  cases hran : task.run setting work with
  | mk mid stop? =>
    rw [hran] at h
    cases stop? with
    | none =>
      obtain rfl := h.last_eq_nil
      exact .inl ⟨rfl, mid, rfl, h, rfl⟩
    | some stop => exact .inr h

theorem addRepositories (hreal : setting.dryRun = false) (identifiers : List String) (work : Work) :
    ∃ deeds last, Log .repositories work
        (Work.runTasks setting (identifiers.map .addRepository) work) deeds last ∧
      (answered (deeds ++ last)).map Prod.fst <+: identifiers.map .addRepository := by
  induction identifiers generalizing work with
  | nil => exact ⟨[], [], nil _ _, List.nil_prefix⟩
  | cons identifier rest ih =>
    obtain ⟨deeds, last, result, hlog, hmade⟩ := addRepository hreal identifier work
    rw [List.map_cons]
    rcases runTasks_cons (.addRepository identifier) _ hlog with
      ⟨rfl, mid, -, hfirst, hrest⟩ | hended
    · obtain ⟨more, last, hmore, hcalls⟩ := ih mid
      rw [hrest]
      refine ⟨deeds ++ more, last, hfirst.trans hmore, ?_⟩
      rw [List.append_nil] at hmade
      rw [List.append_assoc, answered_append, hmade]
      exact (List.prefix_cons_inj _).mpr hcalls
    · refine ⟨deeds, last, hended, ?_⟩
      rw [hmade]
      exact ⟨rest.map .addRepository, rfl⟩

theorem writeSources (hreal : setting.dryRun = false) (entries : List SourceFile) (work : Work)
    (hentries : ∀ entry ∈ entries, entry ∈ work.unit.sources) :
    ∃ deeds last, Log .sources work
        (Work.runTasks setting (entries.map .writeSource) work) deeds last ∧
      answered (deeds ++ last) = [] := by
  induction entries generalizing work with
  | nil => exact ⟨[], [], nil _ _, rfl⟩
  | cons entry rest ih =>
    rw [List.forall_mem_cons] at hentries
    obtain ⟨deeds, last, hlog, hmade⟩ := writeSource hreal work hentries.1
    rw [List.map_cons]
    rcases runTasks_cons (.writeSource entry) _ hlog with
      ⟨rfl, mid, hran, hfirst, hrest⟩ | hended
    · have hgoes : Goes setting .sources work (work.writeSource setting entry) :=
        .writeSource hentries.1
      have hran : work.writeSource setting entry = (mid, none) := hran
      rw [hran] at hgoes
      have hsources : mid.unit.sources = work.unit.sources :=
        Installable.eq_of_declared_eq hgoes.moves.kept.declared _ fun _ => rfl
      obtain ⟨more, last, hmore, hcalls⟩ := ih mid (by rw [hsources]; exact hentries.2)
      rw [hrest]
      refine ⟨deeds ++ more, last, hfirst.trans hmore, ?_⟩
      rw [List.append_nil] at hmade
      rw [List.append_assoc, answered_append, hmade, hcalls, List.append_nil]
    · exact ⟨deeds, last, hended, hmade⟩

theorem of_step (hreal : setting.dryRun = false) (step : Step) (work : Work) :
    ∃ deeds last, Log step work (Work.runTasks setting (step.tasks work.unit) work) deeds last ∧
      step.Asks work.unit (answered (deeds ++ last)) ∧
      (step = .refreshIndex → (answered (deeds ++ last) ≠ [] ↔ work.unit.refreshDue = true)) := by
  cases step with
  | repositories =>
    obtain ⟨deeds, last, hlog, hcalls⟩ := addRepositories hreal work.unit.repositories work
    exact ⟨deeds, last, hlog, hcalls, by simp⟩
  | sources =>
    obtain ⟨deeds, last, hlog, hcalls⟩ := writeSources hreal work.unit.sources work fun _ => id
    exact ⟨deeds, last, hlog, hcalls, by simp⟩
  | refreshIndex =>
    obtain ⟨deeds, last, hlog, hcalls⟩ := refreshIndex hreal work
    rw [Step.tasks, runTasks_singleton]
    refine ⟨deeds, last, hlog, ?_, fun _ => ?_⟩
    · change (answered (deeds ++ last)).map Prod.fst <+: [.refreshIndex]
      rw [hcalls]
      split
      · exact List.prefix_rfl
      · exact List.nil_prefix
    · rw [ne_eq, ← List.map_eq_nil_iff (f := Prod.fst), hcalls]
      simp
  | preScript =>
    obtain ⟨deeds, last, hlog, hcalls⟩ := runScript hreal .pre work
    rw [Step.tasks, runTasks_singleton]
    exact ⟨deeds, last, hlog, hcalls, by simp⟩
  | retrieve =>
    obtain ⟨deeds, last, hlog, hcalls⟩ := retrieve hreal work
    rw [Step.tasks, runTasks_singleton]
    exact ⟨deeds, last, hlog, hcalls, by simp⟩
  | install =>
    obtain ⟨deeds, last, hlog, hcalls⟩ := installPayload hreal work
    rw [Step.tasks, runTasks_singleton]
    exact ⟨deeds, last, hlog, hcalls, by simp⟩
  | postScript =>
    obtain ⟨deeds, last, hlog, hcalls⟩ := runScript hreal .post work
    rw [Step.tasks, runTasks_singleton]
    exact ⟨deeds, last, hlog, hcalls, by simp⟩

end Log

end Provision
