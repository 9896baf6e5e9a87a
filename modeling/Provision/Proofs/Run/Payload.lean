import Provision.Proofs.Document.Proper
import Provision.Proofs.Run.Dry
import Provision.Proofs.Run.Launch
import Provision.Proofs.Run.Scene

/-!
# What is installed

In a real run a unit is completed only after its payload has been installed in the same visit. An
archive is installed only after the visit has fetched it and asked for its name, whatever earlier
runs have left in the unit.
-/

namespace Provision

/-! ## Catalogs that have been run -/

theorem Catalog.Reached.document {sourcesDir : Path} {catalog : Catalog}
    (h : catalog.Reached sourcesDir) :
    ∃ text, Document.parse sourcesDir text = .ok catalog.declared := by
  induction h with
  | @parsed text catalog document =>
    have hunits := (Document.wellFormed_of_parse document).units
    have hsame : ∀ entry ∈ catalog.entries, { entry with unit := entry.unit.declared } = entry := by
      intro entry hentry
      have harchive := (hunits entry hentry).no_archive
      have hrefresh := (hunits entry hentry).no_refresh
      unfold Installable.declared
      rw [← harchive, ← hrefresh]
    refine ⟨text, document.trans ?_⟩
    unfold Catalog.declared
    rw [List.map_congr_left hsame]
    simp
  | ran state before setting strict ih =>
    obtain ⟨text, hparse⟩ := ih
    have hleft := (RunState.run_ledBy setting strict state before.oneBucket).entries
    exact ⟨text, hparse.trans (congrArg _ (declared_of_left hleft).symm)⟩

theorem Catalog.Reached.wellFormed {sourcesDir : Path} {catalog : Catalog}
    (h : catalog.Reached sourcesDir) :
    ∀ entry ∈ catalog.entries, entry.unit.declared.WellFormed sourcesDir := by
  intro entry hentry
  obtain ⟨text, hparse⟩ := h.document
  exact (Document.wellFormed_of_parse hparse).units _ (List.mem_map_of_mem hentry)

theorem Catalog.Reached.delivery {sourcesDir : Path} {catalog : Catalog}
    (h : catalog.Reached sourcesDir) : ∀ entry ∈ catalog.entries,
      entry.unit.delivery = .downloadedArchive ↔ entry.unit.url?.isSome := by
  intro entry hentry
  obtain ⟨text, hparse⟩ := h.document
  obtain ⟨part, -, hmakes⟩ := Document.exists_section_of_mem (Document.entries_of_parse hparse)
    (List.mem_map_of_mem hentry)
  exact hmakes.proper.delivery

theorem Catalog.Reached.distinct {sourcesDir : Path} {catalog : Catalog}
    (h : catalog.Reached sourcesDir) : catalog.names.Nodup := by
  obtain ⟨text, hparse⟩ := h.document
  have hdistinct := (Document.wellFormed_of_parse hparse).distinct
  simpa [Catalog.declared, Catalog.names, Function.comp_def] using hdistinct

theorem Criteria.forced_or_new {criteria : Criteria} {unit : Installable} {snapshot : Snapshot}
    {hostname : String} {forced : Bool}
    (h : criteria.judge unit snapshot hostname = .install forced) :
    forced = true ∨ snapshot.has unit.package = false := by
  unfold judge at h
  split at h
  · exact .inl (Decision.install.inj h).symm
  · split at h
    · cases h
    · next hnew => exact .inr (by simpa using hnew)

/-! ## The calls of a visit -/

/-- The call is about what a unit installs. -/
def Call.isPayload : Call → Bool
  | fetch _ | nameOf _ | installArchive _ | reinstall _ => true
  | addRepository _ | refreshIndex | runScript _ => false

abbrev Answered := Call × Except Failure String

def payloadNext (calls : List Answered) : Event → List Answered
  | .began _ => []
  | .called call result _ => if call.isPayload then calls ++ [(call, result)] else calls
  | _ => calls

/-- The calls about the payload since the last visit began, first one first. -/
def payloadCalls (trace : List Event) : List Answered := trace.foldl payloadNext []

@[simp] theorem payloadCalls_append_singleton (trace : List Event) (event : Event) :
    payloadCalls (trace ++ [event]) = payloadNext (payloadCalls trace) event := by
  simp [payloadCalls]

/-- The calls have brought the unit to the host, with nothing failed and nothing done twice. -/
def Delivered (unit : Installable) (calls : List Answered) : Prop :=
  match unit.url? with
  | some url => ∃ text package answer, calls = [(.fetch url, .ok text),
      (.nameOf ⟨text⟩, .ok package), (.installArchive ⟨text⟩, .ok answer)]
  | none =>
    if unit.has .virtual then calls = []
    else ∃ answer, calls = [(.reinstall unit.package, .ok answer)]

/-- The archive has been fetched for the unit, and is new to the host unless the unit is forced. -/
def Fetched (setting : Setting) (unit : Installable) (archive : Path) (calls : List Answered) :
    Prop :=
  ∃ url package, unit.url? = some url ∧
    calls = [(.fetch url, .ok archive.text), (.nameOf archive, .ok package)] ∧
    (setting.criteria.judge unit setting.snapshot setting.hostname = .install true ∨
      setting.snapshot.has package = false)

/-- A retrieval that has succeeded has fetched what is to be installed, if anything is. -/
def Retrieved (setting : Setting) (unit : Installable) (forced : Bool) (calls : List Answered)
    (archive? : Option Path) : Prop :=
  match unit.url? with
  | none => calls = []
  | some url => ∃ text package,
      calls = [(.fetch url, .ok text), (.nameOf ⟨text⟩, .ok package)] ∧ archive? = some ⟨text⟩ ∧
        (forced = true ∨ setting.snapshot.has package = false)

/-- Archives are installed when they have been fetched, and units completed when they have been
delivered, in the visit that is under way. -/
def PayloadRule (setting : Setting) (units : List Installable) (before : List Event) :
    Event → Prop
  | .called (.installArchive archive) _ _ => ∃ unit ∈ units,
      (scene before).unit? = some unit.name ∧ Fetched setting unit archive (payloadCalls before)
  | .reported result => result.outcome = .completed → ∃ unit ∈ units, unit.name = result.name ∧
      (scene before).unit? = some unit.name ∧ Delivered unit (payloadCalls before)
  | _ => True

/-! ## Steps -/

section Steps

variable {setting : Setting} {units : List Installable} {unit : Installable} {forced : Bool}
  {calls : List Answered} {step : Step} {work next : Work}

/-- A unit is at work, and its visit has made these calls about the payload so far. -/
structure Handling (setting : Setting) (units : List Installable) (unit : Installable)
    (forced : Bool) (calls : List Answered) (work : Work) : Prop where
  follows : Follows (PayloadRule setting units) work.session.trace
  scene : (scene work.session.trace).unit? = some unit.name
  calls : payloadCalls work.session.trace = calls
  declared : work.unit.declared = unit.declared
  forced : work.forced = forced

namespace Handling

theorem unit_eq {α : Type} (h : Handling setting units unit forced calls work)
    (f : Installable → α) (hf : ∀ unit, f unit.declared = f unit) : f work.unit = f unit :=
  Installable.eq_of_declared_eq h.declared f hf

theorem snoc (h : Handling setting units unit forced calls work) {event : Event}
    (hnext : next.session.trace = work.session.trace ++ [event])
    (hrule : PayloadRule setting units work.session.trace event)
    (hscene : ∀ here : Scene, (here.next event).unit? = here.unit?)
    (hdeclared : next.unit.declared = work.unit.declared) (hforced : next.forced = work.forced) :
    Handling setting units unit forced (payloadNext calls event) next where
  follows := by
    rw [hnext]
    exact h.follows.snoc hrule
  scene := by rw [hnext, scene_append_singleton, hscene, h.scene]
  calls := by rw [hnext, payloadCalls_append_singleton, h.calls]
  declared := hdeclared.trans h.declared
  forced := hforced.trans h.forced

theorem of_trace_eq (h : Handling setting units unit forced calls work)
    (hnext : next.session.trace = work.session.trace)
    (hdeclared : next.unit.declared = work.unit.declared) (hforced : next.forced = work.forced) :
    Handling setting units unit forced calls next :=
  ⟨hnext ▸ h.follows, hnext ▸ h.scene, hnext ▸ h.calls, hdeclared.trans h.declared,
    hforced.trans h.forced⟩

theorem enter (h : Handling setting units unit forced calls work) (step : Step) :
    Handling setting units unit forced calls (work.enter step) := by
  have hnext : Handling setting units unit forced (payloadNext calls (.entered step))
      (work.enter step) :=
    h.snoc rfl trivial (fun _ => rfl) rfl rfl
  exact hnext

theorem move (h : Handling setting units unit forced calls work) (hretrieve : step ≠ .retrieve)
    (hinstall : step ≠ .install) (hmove : Move setting work step next) :
    Handling setting units unit forced calls next := by
  have hkept := hmove.kept
  rcases hmove.trace_cases with htrace | ⟨event, htrace, hadds⟩
  · exact h.of_trace_eq htrace hkept.declared hkept.forced
  · have hsame : payloadNext calls event = calls ∧ PayloadRule setting units work.session.trace event ∧
        ∀ here : Scene, (here.next event).unit? = here.unit? := by
      cases hadds with
      | wroteSource | createdMarker => exact ⟨rfl, trivial, fun _ => rfl⟩
      | called due =>
        cases due with
        | addRepository | refreshIndex | runScript => exact ⟨rfl, trivial, fun _ => rfl⟩
        | fetch | nameOf => exact absurd rfl hretrieve
        | installArchive | reinstall => exact absurd rfl hinstall
    obtain ⟨hcalls, hrule, hscene⟩ := hsame
    rw [← hcalls]
    exact h.snoc htrace hrule hscene hkept.declared hkept.forced

theorem runSteps {steps : List Step} (hretrieve : .retrieve ∉ steps) (hinstall : .install ∉ steps)
    (h : Handling setting units unit forced calls work) :
    Handling setting units unit forced calls (Work.runSteps setting steps work).1 := by
  refine runSteps_induction_of_tasks
    (Q := Handling setting units unit forced calls)
    (P := fun _ => Handling setting units unit forced calls)
    (fun step _ hwork => hwork.enter step) ?_ (fun _ _ => id) h
  intro step hstep work hwork
  have hother : step ≠ .retrieve ∧ step ≠ .install :=
    ⟨ne_of_mem_of_not_mem hstep hretrieve, ne_of_mem_of_not_mem hstep hinstall⟩
  exact (moves_tasks setting step work).preserves
    (fun _ _ hheld hmove => hheld.move hother.1 hother.2 hmove) hwork

theorem called (h : Handling setting units unit forced calls work) {call : Call}
    (hcall : call.isPayload = true)
    (hrule : ∀ result shown,
      PayloadRule setting units work.session.trace (.called call result shown)) :
    Handling setting units unit forced
      (calls ++ [(call, (work.session.request setting.collaborators call).2)])
      (work.called setting call) := by
  have hnext : Handling setting units unit forced _ (work.called setting call) :=
    h.snoc rfl (hrule _ _) (fun _ => rfl) rfl rfl
  rw [payloadNext, if_pos hcall] at hnext
  exact hnext

theorem ask_cases (h : Handling setting units unit forced calls work) (step : Step) (call : Call)
    (hcall : call.isPayload = true)
    (hrule : ∀ result shown,
      PayloadRule setting units work.session.trace (.called call result shown)) :
    (∃ answer, work.ask setting step call = (work.called setting call, .ok answer) ∧
      Handling setting units unit forced (calls ++ [(call, .ok answer)])
        (work.called setting call)) ∨
    ∃ failure, work.ask setting step call =
        (work.called setting call, .error (Work.fail step failure)) ∧
      Handling setting units unit forced (calls ++ [(call, .error failure)])
        (work.called setting call) := by
  have hcalled := h.called hcall hrule
  rw [Work.ask_eq]
  cases hresult : (work.session.request setting.collaborators call).2 with
  | ok answer => exact .inl ⟨answer, rfl, hresult ▸ hcalled⟩
  | error failure => exact .inr ⟨failure, rfl, hresult ▸ hcalled⟩

theorem tell_cases (h : Handling setting units unit forced calls work) (step : Step) (call : Call)
    (hcall : call.isPayload = true)
    (hrule : ∀ result shown,
      PayloadRule setting units work.session.trace (.called call result shown)) :
    ∃ more stop?, work.tell setting step call = (work.called setting call, stop?) ∧
      Handling setting units unit forced more (work.called setting call) ∧
      (stop? = none → ∃ answer, more = calls ++ [(call, .ok answer)]) := by
  unfold Work.tell
  rcases h.ask_cases step call hcall hrule with
    ⟨answer, hask, hanswered⟩ | ⟨failure, hask, hfailed⟩ <;> rw [hask]
  · exact ⟨_, none, rfl, hanswered, fun _ => ⟨answer, rfl⟩⟩
  · exact ⟨_, some _, rfl, hfailed, by simp⟩

theorem retrieve (h : Handling setting units unit forced [] work) (hreal : setting.dryRun = false)
    (hnew : forced = true ∨ setting.snapshot.has unit.package = false) :
    ∃ calls, Handling setting units unit forced calls (work.retrieve setting).1 ∧
      ((work.retrieve setting).2 = none →
        Retrieved setting unit forced calls (work.retrieve setting).1.unit.archive?) := by
  have hpackage : work.unit.package = unit.package := h.unit_eq _ fun _ => rfl
  have hurl : work.unit.url? = unit.url? := h.unit_eq _ fun _ => rfl
  -- Selection has let the unit through, so retrieval does not end here for an installed package.
  have hgoes : ¬ (setting.snapshot.has work.unit.package && !work.forced) = true := by
    rw [hpackage, h.forced]
    rcases hnew with hnew | hnew <;> simp [hnew]
  unfold Work.retrieve Retrieved
  rw [hurl]
  cases unit.url? with
  | none => exact ⟨[], h, fun _ => rfl⟩
  | some url =>
    simp only [if_neg hgoes, hreal, Bool.false_eq_true, if_false]
    rcases h.ask_cases .retrieve (.fetch url) rfl (fun _ _ => trivial) with
      ⟨text, hask, hfetched⟩ | ⟨failure, hask, hfailed⟩
    · rw [hask]
      have hrecorded : Handling setting units unit forced [(.fetch url, .ok text)]
          ((work.called setting (.fetch url)).record (.download url)) :=
        hfetched.of_trace_eq rfl rfl rfl
      rcases hrecorded.ask_cases .retrieve (.nameOf ⟨text⟩) rfl (fun _ _ => trivial) with
        ⟨package, hask, hnamed⟩ | ⟨failure, hask, hfailed⟩
      · simp only [hask]
        split
        · exact ⟨_, hnamed, by simp⟩
        · next hfound =>
          refine ⟨_, hnamed.of_trace_eq rfl rfl rfl, fun _ => ⟨text, package, rfl, rfl, ?_⟩⟩
          rw [hnamed.forced] at hfound
          cases forced with
          | true => exact .inl rfl
          | false => exact .inr (by simpa using hfound)
      · simp only [hask]
        exact ⟨_, hfailed, by simp⟩
    · rw [hask]
      exact ⟨_, hfailed, by simp⟩

theorem installArchive (h : Handling setting units unit forced calls work) (hunit : unit ∈ units)
    (hdecided : setting.criteria.judge unit setting.snapshot setting.hostname = .install forced)
    {url text package : String} (hurl : unit.url? = some url)
    (hcalls : calls = [(.fetch url, .ok text), (.nameOf ⟨text⟩, .ok package)])
    (hnew : forced = true ∨ setting.snapshot.has package = false)
    (hdelivery : work.unit.delivery = .downloadedArchive)
    (harchive : work.unit.archive? = some ⟨text⟩) :
    ∃ more, Handling setting units unit forced more (work.installPayload setting).1 ∧
      ((work.installPayload setting).2 = none → Delivered unit more) := by
  have hfetched : Fetched setting unit ⟨text⟩ (payloadCalls work.session.trace) := by
    rw [h.calls]
    refine ⟨url, package, hurl, hcalls, hnew.imp_left fun hforced => ?_⟩
    rw [hdecided, hforced]
  obtain ⟨more, stop?, htell, htold, hanswered⟩ :=
    h.tell_cases .install (.installArchive ⟨text⟩) rfl
      fun _ _ => ⟨unit, hunit, h.scene, hfetched⟩
  simp only [Work.installPayload, hdelivery, harchive, htell]
  cases stop? with
  | some stop => exact ⟨more, htold, by simp⟩
  | none =>
    refine ⟨more, htold.of_trace_eq rfl rfl rfl, fun _ => ?_⟩
    obtain ⟨answer, rfl⟩ := hanswered rfl
    rw [Delivered, hurl]
    exact ⟨text, package, answer, by simp [hcalls]⟩

theorem installPackage (h : Handling setting units unit forced [] work)
    (hreal : setting.dryRun = false) (hurl : unit.url? = none)
    (hdelivery : work.unit.delivery = .packageManager) :
    ∃ more, Handling setting units unit forced more (work.installPayload setting).1 ∧
      ((work.installPayload setting).2 = none → Delivered unit more) := by
  have hhas : work.unit.has = unit.has := h.unit_eq _ fun _ => rfl
  have hpackage : work.unit.package = unit.package := h.unit_eq _ fun _ => rfl
  unfold Work.installPayload Delivered
  rw [hdelivery, hurl, hhas, hpackage]
  simp only
  split
  · exact ⟨[], h, fun _ => rfl⟩
  · obtain ⟨more, stop?, htell, htold, hanswered⟩ :=
      h.tell_cases .install (.reinstall unit.package) rfl fun _ _ => trivial
    simp only [Work.really, hreal, Bool.false_eq_true, if_false, htell]
    cases stop? with
    | some stop => exact ⟨more, htold, by simp⟩
    | none =>
      refine ⟨more, htold.of_trace_eq rfl rfl rfl, fun _ => ?_⟩
      obtain ⟨answer, rfl⟩ := hanswered rfl
      exact ⟨answer, rfl⟩

/-- What has been retrieved is installed, and nothing that was there before. -/
theorem installPayload (h : Handling setting units unit forced calls work)
    (hreal : setting.dryRun = false) (hunit : unit ∈ units)
    (hdecided : setting.criteria.judge unit setting.snapshot setting.hostname = .install forced)
    (hdelivery : unit.delivery = .downloadedArchive ↔ unit.url?.isSome)
    (hretrieved : Retrieved setting unit forced calls work.unit.archive?) :
    ∃ more, Handling setting units unit forced more (work.installPayload setting).1 ∧
      ((work.installPayload setting).2 = none → Delivered unit more) := by
  have hsame : work.unit.delivery = unit.delivery := h.unit_eq _ fun _ => rfl
  unfold Retrieved at hretrieved
  cases hurl : unit.url? with
  | some url =>
    rw [hurl] at hretrieved hdelivery
    obtain ⟨text, package, hcalls, harchive, hnew⟩ := hretrieved
    exact h.installArchive hunit hdecided hurl hcalls hnew (hsame.trans (hdelivery.mpr rfl)) harchive
  | none =>
    rw [hurl] at hretrieved hdelivery
    subst hretrieved
    have hmanaged : unit.delivery = .packageManager := by
      cases hcase : unit.delivery with
      | packageManager => rfl
      | downloadedArchive => simp [hcase] at hdelivery
    exact h.installPackage hreal hurl (hsame.trans hmanaged)

theorem installed (h : Handling setting units unit forced calls work)
    (hreal : setting.dryRun = false) (hunit : unit ∈ units)
    (hdecided : setting.criteria.judge unit setting.snapshot setting.hostname = .install forced)
    (hdelivery : unit.delivery = .downloadedArchive ↔ unit.url?.isSome)
    (hretrieved : Retrieved setting unit forced calls work.unit.archive?) :
    ∃ more, Handling setting units unit forced more
        (Work.runSteps setting [.install, .postScript] work).1 ∧
      ((Work.runSteps setting [.install, .postScript] work).2 = none → Delivered unit more) := by
  rcases runSteps_cons_cases setting .install [.postScript] work with
    hstop | ⟨ran, stop?, hinstall, hrest⟩
  · exact ⟨calls, by rwa [hstop], by simp [hstop]⟩
  have hran : (work.enter .install).installPayload setting = (ran, stop?) :=
    (runTasks_singleton setting .installPayload _).symm.trans hinstall
  obtain ⟨more, hhandled, hdelivered⟩ :=
    (h.enter .install).installPayload hreal hunit hdecided hdelivery hretrieved
  rw [hran] at hhandled hdelivered
  rw [hrest]
  cases stop? with
  | some stop => exact ⟨more, hhandled, by simp⟩
  | none => exact ⟨more, hhandled.runSteps (by decide) (by decide), fun _ => hdelivered rfl⟩

theorem all (h : Handling setting units unit forced [] work) (hreal : setting.dryRun = false)
    (hunit : unit ∈ units)
    (hdecided : setting.criteria.judge unit setting.snapshot setting.hostname = .install forced)
    (hdelivery : unit.delivery = .downloadedArchive ↔ unit.url?.isSome) :
    ∃ calls, Handling setting units unit forced calls (Work.runSteps setting Step.all work).1 ∧
      ((Work.runSteps setting Step.all work).2 = none → Delivered unit calls) := by
  have hall : Step.all = [.repositories, .sources, .refreshIndex, .preScript] ++
      [.retrieve, .install, .postScript] := rfl
  rw [hall, runSteps_append]
  have hfront : Handling setting units unit forced [] (Work.runSteps setting
      [.repositories, .sources, .refreshIndex, .preScript] work).1 :=
    h.runSteps (by decide) (by decide)
  split
  · next ran heq =>
    rw [heq] at hfront
    rcases runSteps_cons_cases setting .retrieve [.install, .postScript] ran with
      hstop | ⟨fetched, stop?, hfetch, hrest⟩
    · exact ⟨[], by rwa [hstop], by simp [hstop]⟩
    have hran : (ran.enter .retrieve).retrieve setting = (fetched, stop?) :=
      (runTasks_singleton setting .retrieve _).symm.trans hfetch
    obtain ⟨calls, hheld, hretrieved⟩ :=
      (hfront.enter .retrieve).retrieve hreal (Criteria.forced_or_new hdecided)
    rw [hran] at hheld hretrieved
    rw [hrest]
    cases stop? with
    | some stop => exact ⟨calls, hheld, by simp⟩
    | none => exact hheld.installed hreal hunit hdecided hdelivery (hretrieved rfl)
  · next ran stop heq =>
    rw [heq] at hfront
    exact ⟨[], hfront, by simp⟩

end Handling

end Steps

/-! ## Runs -/

section Runs

variable {setting : Setting} {units : List Installable} {unit : Installable} {session : Session}
  {strict : Bool}

theorem payloadRule_visit (hreal : setting.dryRun = false) (hunit : unit ∈ units)
    (hdelivery : unit.delivery = .downloadedArchive ↔ unit.url?.isSome)
    (h : Follows (PayloadRule setting units) session.trace) :
    Follows (PayloadRule setting units) (setting.visit session unit).session.trace ∧
      ∀ result, (setting.visit session unit).result = .ok result →
        PayloadRule setting units (setting.visit session unit).session.trace (.reported result) := by
  have hbegan : Follows (PayloadRule setting units) (session.note (.began unit.name)).trace :=
    h.snoc trivial
  have hvisited := visited setting session unit
  generalize setting.visit session unit = visit at hvisited ⊢
  cases hvisited with
  | interrupted arrived => exact ⟨hbegan, fun result hresult => by cases hresult⟩
  | skipped free decided =>
    refine ⟨hbegan, fun result hresult => ?_⟩
    obtain rfl := Except.ok.inj hresult
    intro hcompleted
    cases hcompleted
  | @worked forced final stop? free decided ran =>
    have hbegin : Handling setting units unit forced [] (.begin session unit forced) := by
      refine ⟨hbegan, ?_, payloadCalls_append_singleton _ _, rfl, rfl⟩
      rw [scene_begin]
    obtain ⟨calls, hfinal, hdelivered⟩ := hbegin.all hreal hunit decided hdelivery
    rw [ran] at hfinal hdelivered
    refine ⟨hfinal.follows, fun result hresult hcompleted => ?_⟩
    cases stop? with
    | none =>
      obtain rfl := Except.ok.inj hresult
      exact ⟨unit, hunit, rfl, hfinal.scene, hfinal.calls ▸ hdelivered rfl⟩
    | some stop =>
      cases stop with
      | skipped | failed =>
        obtain rfl := Except.ok.inj hresult
        cases hcompleted
      | fatal => cases hresult

theorem follows_tour_of_visits {rule : List Event → Event → Prop} {units : List Installable}
    (hvisit : ∀ unit ∈ units, ∀ session, Follows rule session.trace →
      Follows rule (setting.visit session unit).session.trace ∧
        ∀ result, (setting.visit session unit).result = .ok result →
          rule (setting.visit session unit).session.trace (.reported result))
    (h : Follows rule session.trace) :
    Follows rule (tour setting strict units session).session.trace := by
  induction units generalizing session with
  | nil => exact h
  | cons unit rest ih =>
    obtain ⟨hvisited, hallowed⟩ := hvisit unit List.mem_cons_self session h
    simp only [tour]
    split
    · exact hvisited
    · next result hresult =>
      have hreported : Follows rule
          ((setting.visit session unit).session.note (.reported result)).trace :=
        hvisited.snoc (hallowed result hresult)
      split
      · exact hreported
      · exact ih (fun other hother => hvisit other (List.mem_cons_of_mem unit hother)) hreported

end Runs

/-- What a real run brings to the host. No two units share a name, and no visit is repeated, so a
name stands for a unit and its visit. -/
structure Delivers (setting : Setting) (before after : RunState) : Prop where
  distinct : before.catalog.names.Nodup
  once : (begun after.session.trace).Nodup
  reported : after.progress.report.units = before.progress.report.units ++ after.session.results
  completed : ∀ front result back, after.session.trace = front ++ .reported result :: back →
    result.outcome = .completed → ∃ entry ∈ before.catalog.entries,
      entry.unit.name = result.name ∧ (scene front).unit? = some entry.unit.name ∧
        Delivered entry.unit (payloadCalls front)
  installed : ∀ front archive result shown back,
    after.session.trace = front ++ .called (.installArchive archive) result shown :: back →
    ∃ entry ∈ before.catalog.entries, (scene front).unit? = some entry.unit.name ∧
      Fetched setting entry.unit archive (payloadCalls front)

/-- Whatever runs there have been before, a real run completes only what it delivers itself. -/
theorem delivers_of_reached {sourcesDir : Path} {catalog : Catalog} (h : catalog.Reached sourcesDir)
    {setting : Setting} (hreal : setting.dryRun = false) (strict : Bool) (progress : Progress)
    (files : Files) (interrupted : Bool) :
    Delivers setting { progress, catalog, session := { files, interrupted } }
      (RunState.run setting strict { progress, catalog, session := { files, interrupted } }).1 := by
  let state : RunState := { progress, catalog, session := { files, interrupted } }
  have hran := RunState.run_ledBy setting strict state h.oneBucket
  have hfollows : Follows (PayloadRule setting (catalog.entries.map Entry.unit))
      (RunState.run setting strict state).1.session.trace := by
    rw [hran.session]
    refine follows_tour_of_visits (fun unit hunit session => ?_) (follows_nil _)
    obtain ⟨entry, hentry, rfl⟩ := RunState.exists_entry_of_due hunit
    exact payloadRule_visit hreal (List.mem_map_of_mem hentry) (h.delivery entry hentry)
  refine ⟨h.distinct, ?_, ?_, ?_, ?_⟩
  · have hnames := Catalog.nodup_names_runOrder_of_nodup h.oneBucket h.distinct
    have hturns := ((prefix_turns_tour setting strict state.session state.due).sublist.trans
      state.sublist_due).map Installable.name
    rw [List.map_map, List.map_map] at hturns
    rw [hran.session, begun_tour]
    exact hturns.nodup hnames
  · rw [hran.report, hran.session, results_tour]
    simp [state, Session.results]
  · intro front result back htrace hcompleted
    obtain ⟨unit, hunit, hdelivered⟩ := hfollows front _ back htrace hcompleted
    obtain ⟨entry, hentry, rfl⟩ := List.mem_map.mp hunit
    exact ⟨entry, hentry, hdelivered⟩
  · intro front archive result shown back htrace
    obtain ⟨unit, hunit, hfetched⟩ := hfollows front _ back htrace
    obtain ⟨entry, hentry, rfl⟩ := List.mem_map.mp hunit
    exact ⟨entry, hentry, hfetched⟩

/-- The unit still holds the archive of the run before, and the run fetches it again. -/
theorem delivers_of_reached_by_fetching :
    Catalog.fetched.Reached Document.defaultSourcesDir ∧ (Setting.fetching false).dryRun = false ∧
    Delivers (.fetching false)
      { progress := {}, catalog := .fetched, session := { files := {}, interrupted := false } }
      (RunState.run (.fetching false) false
        { progress := {}, catalog := .fetched
          session := { files := {}, interrupted := false } }).1 :=
  ⟨reached_fetched, rfl, delivers_of_reached reached_fetched rfl _ _ _ _⟩

end Provision
