import Provision.Proofs.Document.Proper
import Provision.Proofs.Invocation.Transcript
import Provision.Proofs.Run.Ending

/-!
# How an installation ends

The code that the program ends with says who is to act next: 2 is for what the user wrote, 130 for
the interrupt, 1 for the host and its units, and 0 for nobody. What it has printed by then is the
account of the run, whether the run has come to its end or not. Only a second signal leaves neither
time for an account nor a code that says more than which one it was.
-/

namespace Provision

/-! ## Errors of runs -/

section

variable {setting : Setting} {strict : Bool} {session : Session}

theorem code_of_tour {units : List Installable} {error : RunError}
    (h : (tour setting strict units session).error? = some error) :
    error = .interrupted ∨ error.exitCode = 1 := by
  induction units generalizing session with
  | nil => cases h
  | cons unit rest ih =>
    simp only [tour] at h
    split at h
    · next own hown =>
      obtain rfl := Option.some.inj h
      rcases visit_eq_error hown with ⟨rfl, -⟩ | ⟨message, rfl⟩
      · exact .inl rfl
      · exact .inr rfl
    · split at h
      · next own habort =>
        obtain rfl := Option.some.inj h
        obtain ⟨-, fault, -, rfl⟩ := isFailed_of_abort? habort
        exact .inr rfl
      · exact ih h

theorem code_of_run {sourcesDir : Path} {catalog : Catalog} (h : catalog.WellFormed sourcesDir)
    {files : Files} {interrupted : Bool} {error : RunError}
    (herror : (RunState.run setting strict { catalog, session := { files, interrupted } }).2 =
      .error error) : error = .interrupted ∨ error.exitCode = 1 := by
  rw [snd_of_fresh h] at herror
  split at herror
  · next own hown =>
    obtain rfl := Except.error.inj herror
    exact code_of_tour hown
  · split at herror
    · exact .inl (Except.error.inj herror).symm
    · cases herror

end

/-! ## What an installation needs -/

/-- What has been obtained before the first unit. -/
structure Obtained where
  config : Configuration
  catalog : Catalog
  work : Path
  snapshot : Snapshot
  hostname : String

/-- A command line that asks for an installation. -/
structure Installation where
  dryRun : Bool
  config? : Option Path
  verbosity : Nat
  file : Path
  select : SelectOptions
  stopOnError : Bool
  markerRoot? : Option Path

namespace Installation

variable (installation : Installation) (environment : Environment)

def arguments : Arguments where
  dryRun := installation.dryRun
  config? := installation.config?
  verbosity := installation.verbosity
  job := .install installation.file installation.select installation.stopOnError
    installation.markerRoot?

def sourcesDir (config : Configuration) : Path :=
  installation.select.sourcesDir?.getD config.sourcesDir

/-- The configuration or the document is not what it should be. -/
def Misused : Prop :=
  (∃ error, Configuration.load environment.files installation.config? = .error error) ∨
  ∃ config text diagnostic,
    Configuration.load environment.files installation.config? = .ok config ∧
    environment.files.readText installation.file = .ok text ∧
    Document.parse (installation.sourcesDir config) text.toList = .error diagnostic

/-- All that an installation needs before it asks for the snapshot is there. -/
structure Ready (config : Configuration) (catalog : Catalog) (work : Path) : Prop where
  loaded : Configuration.load environment.files installation.config? = .ok config
  document : ∃ text, environment.files.readText installation.file = .ok text ∧
    Document.parse (installation.sourcesDir config) text.toList = .ok catalog
  preflight : installation.dryRun = true ∨ (environment.preflight config).passes = true
  directory : environment.workDirectory = .ok work

/-- All that an installation needs is there. -/
structure Obtains (obtained : Obtained) : Prop
    extends installation.Ready environment obtained.config obtained.catalog obtained.work where
  snapshot : (environment.machine.snapshot [] environment.files).result = .ok obtained.snapshot
  hostname : environment.hostnameFor installation.select = .ok obtained.hostname

/-- The signal that ends the program while it waits for the snapshot. -/
def fatalWhileAsking? : Option Signal :=
  Signal.fatal? false (environment.machine.snapshot [] environment.files).signals

/-- The run that is started with what has been obtained. -/
def setting (obtained : Obtained) : Setting where
  collaborators := environment.machine.collaborators obtained.work
  criteria := installation.select.criteria
  snapshot := obtained.snapshot
  markers := ⟨installation.markerRoot?.getD obtained.config.markerRoot⟩
  hostname := obtained.hostname
  dryRun := installation.dryRun

def strict (obtained : Obtained) : Bool :=
  installation.stopOnError || obtained.config.stopOnError

/-- Where the run starts: the question for the snapshot has been put. -/
def start (obtained : Obtained) : RunState :=
  let asked := environment.machine.snapshot [] environment.files
  { catalog := obtained.catalog
    session := { files := asked.files, interrupted := asked.interrupt } }

def ran (obtained : Obtained) : RunState × Except RunError Report :=
  RunState.run (installation.setting environment obtained) (installation.strict obtained)
    (start environment obtained)

/-- A second signal ends the program, which has reported these units by then. -/
inductive Stopped : Signal → List UnitResult → Prop
  | asking {config : Configuration} {catalog : Catalog} {work : Path} {signal : Signal}
      (ready : installation.Ready environment config catalog work)
      (fatal : fatalWhileAsking? environment = some signal) : Stopped signal []
  | running {obtained : Obtained} {ending : AbruptEnd}
      (obtains : installation.Obtains environment obtained)
      (calm : fatalWhileAsking? environment = none)
      (ended : (installation.ran environment obtained).1.session.abruptEnd? = some ending) :
      Stopped ending.signal (ending.trace.filterMap Event.result?)

variable {installation environment}

theorem Obtains.unique {a b : Obtained} (ha : installation.Obtains environment a)
    (hb : installation.Obtains environment b) : a = b := by
  obtain ⟨config, catalog, work, snapshot, hostname⟩ := a
  obtain ⟨config', catalog', work', snapshot', hostname'⟩ := b
  obtain rfl := Except.ok.inj (ha.loaded.symm.trans hb.loaded)
  obtain ⟨text, hread, hparse⟩ := ha.document
  obtain ⟨text', hread', hparse'⟩ := hb.document
  obtain rfl := Except.ok.inj (hread.symm.trans hread')
  obtain rfl := Except.ok.inj (hparse.symm.trans hparse')
  obtain rfl := Except.ok.inj (ha.directory.symm.trans hb.directory)
  obtain rfl := Except.ok.inj (ha.snapshot.symm.trans hb.snapshot)
  obtain rfl := Except.ok.inj (ha.hostname.symm.trans hb.hostname)
  rfl

theorem Ready.not_misused {config : Configuration} {catalog : Catalog} {work : Path}
    (h : installation.Ready environment config catalog work) :
    ¬ installation.Misused environment := by
  rintro (⟨error, herror⟩ | ⟨other, text, diagnostic, hconfig, hread, hparse⟩)
  · rw [h.loaded] at herror
    cases herror
  · obtain rfl := Except.ok.inj (h.loaded.symm.trans hconfig)
    obtain ⟨own, hown, hcatalog⟩ := h.document
    obtain rfl := Except.ok.inj (hown.symm.trans hread)
    rw [hcatalog] at hparse
    cases hparse

/-! ## Ends -/

/-- How an installation ends: the user has to change something, the host is not ready, a second
signal has come before all is there, or a run has been started. -/
inductive Ended (installation : Installation) (environment : Environment) : Termination → Prop
  | misused {termination : Termination} (cause : installation.Misused environment)
      (code : termination.code = 2) : Ended installation environment termination
  | unready {termination : Termination} (used : ¬ installation.Misused environment)
      (lacks : ∀ obtained, ¬ installation.Obtains environment obtained)
      (calm : ∀ config catalog work, installation.Ready environment config catalog work →
        fatalWhileAsking? environment = none)
      (code : termination.code = 1) : Ended installation environment termination
  | asking {config : Configuration} {catalog : Catalog} {work : Path} {signal : Signal}
      {termination : Termination} (ready : installation.Ready environment config catalog work)
      (fatal : fatalWhileAsking? environment = some signal)
      (code : termination.code = signal.exitCode) (error : termination.error? = none)
      (output : termination.output = []) : Ended installation environment termination
  | started (obtained : Obtained) (obtains : installation.Obtains environment obtained)
      (calm : fatalWhileAsking? environment = none) :
      Ended installation environment (Invocation.execute (installation.setting environment obtained)
        (installation.strict obtained) (start environment obtained))

theorem Ended.of_unready {termination : Termination} (used : ¬ installation.Misused environment)
    (unready : ∀ config catalog work, ¬ installation.Ready environment config catalog work)
    (code : termination.code = 1) : installation.Ended environment termination :=
  .unready used (fun _ h => unready _ _ _ h.toReady)
    (fun config catalog work h => absurd h (unready config catalog work)) code

theorem prepare_cases (environment : Environment) (config : Configuration) (dryRun : Bool) :
    (∃ work, environment.prepare config dryRun = .ok work ∧ environment.workDirectory = .ok work ∧
      (dryRun = true ∨ (environment.preflight config).passes = true)) ∨
    ∃ error, environment.prepare config dryRun = .error error ∧ error.exitCode = 1 ∧
      ∀ work, dryRun = true ∨ (environment.preflight config).passes = true →
        environment.workDirectory ≠ .ok work := by
  unfold Environment.prepare
  by_cases hready : dryRun = true ∨ (environment.preflight config).passes = true
  · have hgoes : ¬ (!dryRun && !(environment.preflight config).passes) = true := by
      rcases hready with hready | hready <;> simp [hready]
    simp only [if_neg hgoes]
    cases environment.workDirectory with
    | ok work => exact .inl ⟨work, rfl, rfl, hready⟩
    | error reason => exact .inr ⟨_, rfl, rfl, by simp⟩
  · have hstops : (!dryRun && !(environment.preflight config).passes) = true := by
      rw [not_or] at hready
      simp [hready]
    simp only [if_pos hstops]
    exact .inr ⟨_, rfl, rfl, fun _ h => absurd h hready⟩

theorem code_of_hostnameFor {environment : Environment} {select : SelectOptions} {error : RunError}
    (h : environment.hostnameFor select = .error error) : error.exitCode = 1 := by
  unfold Environment.hostnameFor at h
  split at h
  · cases h
  · cases hname : environment.hostname with
    | ok name => simp [hname, Except.mapError] at h
    | error reason =>
      rw [hname] at h
      obtain rfl := Except.error.inj h
      rfl

section

variable {config : Configuration}
  (hconfig : Configuration.load environment.files installation.config? = .ok config)

include hconfig

theorem not_misused_of_document
    (hdocument : ∀ text diagnostic, environment.files.readText installation.file = .ok text →
      Document.parse (installation.sourcesDir config) text.toList ≠ .error diagnostic) :
    ¬ installation.Misused environment := by
  rintro (⟨error, herror⟩ | ⟨other, text, diagnostic, hother, hread, hparse⟩)
  · rw [hconfig] at herror
    cases herror
  · obtain rfl := Except.ok.inj (hconfig.symm.trans hother)
    exact hdocument text diagnostic hread hparse

theorem ended_of_document {text : String} {catalog : Catalog}
    (hread : environment.files.readText installation.file = .ok text)
    (hparse : Document.parse (installation.sourcesDir config) text.toList = .ok catalog) :
    installation.Ended environment (Invocation.run environment installation.arguments) := by
  have hdocument : readDocument environment.files installation.file
      (installation.sourcesDir config) = .ok catalog := by
    simp [readDocument, hread, hparse, Except.mapError, bind, Except.bind]
  rw [sourcesDir] at hdocument
  have hused : ¬ installation.Misused environment := by
    refine not_misused_of_document hconfig fun own diagnostic hown => ?_
    obtain rfl := Except.ok.inj (hread.symm.trans hown)
    simp [hparse]
  have hsame {other : Configuration} {found : Catalog} {work : Path}
      (h : installation.Ready environment other found work) : other = config :=
    Except.ok.inj (h.loaded.symm.trans hconfig)
  simp only [Invocation.run, hconfig, arguments, Invocation.install, hdocument]
  rcases prepare_cases environment config installation.dryRun with
    ⟨work, hwork, hdirectory, hpasses⟩ | ⟨error, herror, hcode, hlacks⟩
  · have hready : installation.Ready environment config catalog work :=
      ⟨hconfig, ⟨text, hread, hparse⟩, hpasses, hdirectory⟩
    simp only [hwork, bind, Except.bind, pure, Except.pure]
    cases hfatal : fatalWhileAsking? environment with
    | some signal =>
      rw [fatalWhileAsking?] at hfatal
      simp only [hfatal]
      exact .asking hready hfatal rfl rfl rfl
    | none =>
      have hcalm := hfatal
      rw [fatalWhileAsking?] at hfatal
      simp only [hfatal]
      cases hsnapshot : (environment.machine.snapshot [] environment.files).result with
      | error failure =>
        refine .unready hused (fun obtained h => ?_) (fun _ _ _ _ => hcalm) rfl
        have hfound := h.snapshot
        rw [hsnapshot] at hfound
        cases hfound
      | ok snapshot =>
        cases hhostname : environment.hostnameFor installation.select with
        | error error =>
          refine .unready hused (fun obtained h => ?_) (fun _ _ _ _ => hcalm)
            (code_of_hostnameFor hhostname)
          have hfound := h.hostname
          rw [hhostname] at hfound
          cases hfound
        | ok hostname =>
          exact .started ⟨config, catalog, work, snapshot, hostname⟩
            ⟨hready, hsnapshot, hhostname⟩ hcalm
  · simp only [herror, bind, Except.bind]
    refine .of_unready hused (fun other found work h => ?_) hcode
    have hpasses := h.preflight
    rw [hsame h] at hpasses
    exact hlacks work hpasses h.directory

end

theorem ended (installation : Installation) (environment : Environment) :
    installation.Ended environment (Invocation.run environment installation.arguments) := by
  cases hconfig : Configuration.load environment.files installation.config? with
  | error error =>
    have hrun : Invocation.run environment installation.arguments =
        .failed (.configuration error.failure.text) environment.files := by
      simp [Invocation.run, arguments, hconfig]
    rw [hrun]
    exact .misused (.inl ⟨error, hconfig⟩) rfl
  | ok config =>
    cases hread : environment.files.readText installation.file with
    | error fault =>
      have hrun : Invocation.run environment installation.arguments =
          .failed (.io fault.message) environment.files := by
        simp [Invocation.run, arguments, hconfig, Invocation.install, readDocument, hread,
          Except.mapError, bind, Except.bind]
      rw [hrun]
      refine .of_unready (not_misused_of_document hconfig fun text diagnostic hown => ?_)
        (fun other found work h => ?_) rfl
      · rw [hread] at hown
        cases hown
      · obtain ⟨text, hown, -⟩ := h.document
        rw [hread] at hown
        cases hown
    | ok text =>
      cases hparse : Document.parse (installation.sourcesDir config) text.toList with
      | error diagnostic =>
        have hrun : Invocation.run environment installation.arguments =
            .failed (.document installation.file.text diagnostic) environment.files := by
          rw [sourcesDir] at hparse
          simp [Invocation.run, arguments, hconfig, Invocation.install, readDocument, hread, hparse,
            Except.mapError, bind, Except.bind]
        rw [hrun]
        exact .misused (.inr ⟨config, text, diagnostic, hconfig, hread, hparse⟩) rfl
      | ok catalog => exact ended_of_document hconfig hread hparse

/-! ## The contract -/

/-- What a started run has printed: the unit lines as they were reported, and one summary of them. -/
structure Printed (dryRun : Bool) (ran : RunState) (output : List Output) : Prop where
  reported : ran.progress.report.units = ran.session.results
  lines : output.filterMap Output.own? =
    ran.session.results.flatMap (UnitResult.shown dryRun) ++ ["", ran.progress.report.summary]
  status : (ran.session.results.flatMap (UnitResult.shown dryRun)).filter Transcript.isStatus =
    ran.session.results.map UnitResult.line
  summary : ran.progress.report.summary =
    Transcript.summaryOf (ran.session.results.map UnitResult.line)

theorem execute_of_running {setting : Setting} {strict : Bool} {state : RunState}
    (h : (RunState.run setting strict state).1.session.abruptEnd? = none) :
    (Invocation.execute setting strict state).code =
        Invocation.runCode (RunState.run setting strict state).2 ∧
      (Invocation.execute setting strict state).output =
        (RunState.run setting strict state).1.session.trace.flatMap
            (Output.ofEvent setting.dryRun) ++
          [.line "", .line (RunState.run setting strict state).1.progress.report.summary] := by
  constructor <;> simp only [Invocation.execute, h]

theorem printed_of_run {sourcesDir : Path} {text : List Char} {catalog : Catalog}
    (h : Document.parse sourcesDir text = .ok catalog) (setting : Setting) (strict : Bool)
    (files : Files) (interrupted : Bool)
    (hrunning : (RunState.run setting strict
      { catalog, session := { files, interrupted } }).1.session.abruptEnd? = none) :
    Printed setting.dryRun
      (RunState.run setting strict { catalog, session := { files, interrupted } }).1
      (Invocation.execute setting strict { catalog, session := { files, interrupted } }).output := by
  have hcatalog := Document.wellFormed_of_parse h
  have hreported := results_of_fresh hcatalog setting strict files interrupted
  have hnames := (names_of_fresh hcatalog setting strict files interrupted).subset
  -- The name of a unit ends at a colon in the document, as it does in a status line.
  have hcolon : ∀ result ∈ (RunState.run setting strict
      { catalog, session := { files, interrupted } }).1.progress.report.units,
      ':' ∉ result.name.toList := by
    intro result hresult
    obtain ⟨entry, hentry, hname⟩ := List.mem_map.mp (hnames (List.mem_map_of_mem hresult))
    have hlisted := (Catalog.runOrder_perm hcatalog.oneBucket).subset hentry
    obtain ⟨part, -, hmakes⟩ := Document.exists_section_of_mem (Document.entries_of_parse h) hlisted
    rw [← hname]
    exact hmakes.proper.no_colon
  have hsummary := Transcript.summary_eq hcolon
  rw [← hreported] at hsummary
  refine ⟨hreported.symm, ?_, Transcript.filter_shown _ _, hsummary⟩
  rw [(execute_of_running hrunning).2, List.filterMap_append, own_ofTrace]
  rfl

/-- The code and the output of an installation that comes to its end. -/
structure Accounted (installation : Installation) (environment : Environment)
    (termination : Termination) : Prop where
  interrupted : termination.code = 130 ↔ ∃ obtained, installation.Obtains environment obtained ∧
    (installation.ran environment obtained).2 = .error .interrupted
  succeeded : termination.code = 0 ↔ ∃ obtained, installation.Obtains environment obtained ∧
    ∃ report, (installation.ran environment obtained).2 = .ok report ∧
      ∀ result ∈ report.units, result.outcome.isFailed = false
  otherwise : termination.code ≠ 2 → termination.code ≠ 130 → termination.code ≠ 0 →
    termination.code = 1
  printed : ∀ obtained, installation.Obtains environment obtained →
    Printed installation.dryRun (installation.ran environment obtained).1 termination.output

/-- An end by a signal, which leaves the lines of the units that were reported by then. -/
structure BrokenOff (installation : Installation) (environment : Environment) (signal : Signal)
    (results : List UnitResult) (termination : Termination) : Prop where
  arrived : fatalWhileAsking? environment = some signal ∨
    ∃ (obtained : Obtained) (before : Session) (call : Call),
      installation.Obtains environment obtained ∧ Signal.fatal? before.interrupted
        ((installation.setting environment obtained).collaborators.respond before.calls call
          before.files).signals = some signal
  code : termination.code = signal.exitCode
  error : termination.error? = none
  lines : termination.output.filterMap Output.own? =
    results.flatMap (UnitResult.shown installation.dryRun)
  reported : ∀ obtained, installation.Obtains environment obtained →
    results <+: (installation.ran environment obtained).1.progress.report.units

/-- What the end of an installation says about it. -/
structure Contract (installation : Installation) (environment : Environment)
    (termination : Termination) : Prop where
  misused : termination.code = 2 ↔ installation.Misused environment
  stopped : ∀ signal results, installation.Stopped environment signal results →
    BrokenOff installation environment signal results termination
  accounted : (∀ signal results, ¬ installation.Stopped environment signal results) →
    Accounted installation environment termination

theorem runCode_spec {result : Except RunError Report}
    (h : ∀ error, result = .error error → error = .interrupted ∨ error.exitCode = 1) :
    Invocation.runCode result ≠ 2 ∧
    (Invocation.runCode result = 130 ↔ result = .error .interrupted) ∧
    (Invocation.runCode result = 0 ↔ ∃ report, result = .ok report ∧
      ∀ result ∈ report.units, result.outcome.isFailed = false) ∧
    (Invocation.runCode result ≠ 130 → Invocation.runCode result ≠ 0 →
      Invocation.runCode result = 1) := by
  cases result with
  | error error =>
    rcases h error rfl with rfl | hcode
    · simp [Invocation.runCode, RunError.exitCode]
    · have hother : error ≠ .interrupted := by
        rintro rfl
        simp [RunError.exitCode] at hcode
      simp [Invocation.runCode, hcode, hother]
  | ok report =>
    cases hfailures : report.hasFailures with
    | false =>
      have hgood : ∀ result ∈ report.units, result.outcome.isFailed = false := by
        simpa [Report.hasFailures] using hfailures
      simp only [Invocation.runCode, hfailures]
      simpa using hgood
    | true =>
      have hbad : ∃ result ∈ report.units, result.outcome.isFailed = true := by
        simpa [Report.hasFailures] using hfailures
      simp only [Invocation.runCode, hfailures]
      simpa using hbad

/-- Where something is missing, no run is started, and only the code has to be right. -/
theorem Contract.of_lacking {installation : Installation} {environment : Environment}
    {termination : Termination} (h : ∀ obtained, ¬ installation.Obtains environment obtained)
    (hrunning : ∀ signal results, ¬ installation.Stopped environment signal results)
    (hmisused : termination.code = 2 ↔ installation.Misused environment)
    (hcode : termination.code = 2 ∨ termination.code = 1) :
    installation.Contract environment termination := by
  have hnone {P : Obtained → Prop} :
      ¬ ∃ obtained, installation.Obtains environment obtained ∧ P obtained :=
    fun ⟨obtained, hobtained, _⟩ => h obtained hobtained
  refine ⟨hmisused, fun signal results hstopped => absurd hstopped (hrunning signal results),
    fun _ => ?_⟩
  exact ⟨iff_of_false (by omega) hnone, iff_of_false (by omega) hnone,
    fun hother _ _ => hcode.resolve_left hother,
    fun obtained hobtained => absurd hobtained (h obtained)⟩

/-- A program that waits for the snapshot has reported nothing. -/
theorem Contract.of_asking {installation : Installation} {environment : Environment}
    {termination : Termination} {signal : Signal} (hused : ¬ installation.Misused environment)
    (hstopped : installation.Stopped environment signal [])
    (hfatal : fatalWhileAsking? environment = some signal)
    (hcode : termination.code = signal.exitCode) (herror : termination.error? = none)
    (houtput : termination.output = []) : installation.Contract environment termination := by
  have hother : signal.exitCode ≠ 2 := by cases signal <;> decide
  refine ⟨iff_of_false (hcode ▸ hother) hused, fun other results h => ?_,
    fun hrunning => absurd hstopped (hrunning signal [])⟩
  cases h with
  | asking ready fatal =>
    obtain rfl := Option.some.inj (hfatal.symm.trans fatal)
    exact ⟨.inl hfatal, hcode, herror, by simp [houtput], fun _ _ => List.nil_prefix⟩
  | running obtains calm =>
    rw [hfatal] at calm
    cases calm

section

variable {obtained : Obtained} (obtains : installation.Obtains environment obtained)
  (calm : fatalWhileAsking? environment = none)

include obtains calm

/-- What has been obtained is the only thing that can have been. -/
theorem stopped_iff {signal : Signal} {results : List UnitResult} :
    installation.Stopped environment signal results ↔
      ∃ ending, (installation.ran environment obtained).1.session.abruptEnd? = some ending ∧
        ending.signal = signal ∧ ending.trace.filterMap Event.result? = results := by
  constructor
  · rintro (⟨-, fatal⟩ | ⟨others, -, ended⟩)
    · rw [calm] at fatal
      cases fatal
    · obtain rfl := others.unique obtains
      exact ⟨_, ended, rfl, rfl⟩
  · rintro ⟨ending, ended, rfl, rfl⟩
    exact .running obtains calm ended

theorem contract_of_started : installation.Contract environment
    (Invocation.execute (installation.setting environment obtained)
      (installation.strict obtained) (start environment obtained)) := by
  obtain ⟨text, hread, hparse⟩ := obtains.document
  have hcatalog := Document.wellFormed_of_parse hparse
  have honly {P : Obtained → Prop} :
      (∃ other, installation.Obtains environment other ∧ P other) ↔ P obtained :=
    ⟨fun ⟨other, hother, hholds⟩ => hother.unique obtains ▸ hholds,
      fun hholds => ⟨obtained, obtains, hholds⟩⟩
  cases hend : (installation.ran environment obtained).1.session.abruptEnd? with
  | some ending =>
    have hstopped : installation.Stopped environment ending.signal _ := .running obtains calm hend
    have hexecute : Invocation.execute (installation.setting environment obtained)
        (installation.strict obtained) (start environment obtained) =
          .abrupt installation.dryRun ending := by
      rw [ran] at hend
      simp only [Invocation.execute, hend]
      rfl
    have hother : ending.signal.exitCode ≠ 2 := by cases ending.signal <;> decide
    rw [hexecute]
    refine ⟨iff_of_false hother obtains.not_misused, fun signal results h => ?_,
      fun hrunning => absurd hstopped (hrunning _ _)⟩
    obtain ⟨other, hsame, rfl, rfl⟩ := (stopped_iff obtains calm).mp h
    obtain rfl := Option.some.inj (hend.symm.trans hsame)
    have hwithin := within_of_run hcatalog _ _ _ _ hend
    obtain ⟨before, call, hcame⟩ := hwithin.came
    refine ⟨.inr ⟨obtained, before, call, obtains, hcame.fatal⟩, rfl, rfl, own_ofTrace _ _,
      fun other hother => ?_⟩
    obtain rfl := hother.unique obtains
    have hprefix : ending.trace.filterMap Event.result? <+:
        (installation.ran environment other).1.session.results := hwithin.trace.filterMap _
    have hreported : (installation.ran environment other).1.session.results =
        (installation.ran environment other).1.progress.report.units :=
      results_of_fresh hcatalog _ _ _ _
    rwa [hreported] at hprefix
  | none =>
    have hkinds : ∀ error, (installation.ran environment obtained).2 = .error error →
        error = .interrupted ∨ error.exitCode = 1 := fun error herror => code_of_run hcatalog herror
    obtain ⟨hused, hinterrupted, hsucceeded, hotherwise⟩ := runCode_spec hkinds
    have hcode := (execute_of_running hend).1
    rw [ran] at hinterrupted hsucceeded
    refine ⟨iff_of_false (hcode ▸ hused) obtains.not_misused, fun signal results h => ?_,
      fun _ => ⟨?_, ?_, fun _ => ?_, ?_⟩⟩
    · obtain ⟨ending, hsome, -⟩ := (stopped_iff obtains calm).mp h
      rw [hend] at hsome
      cases hsome
    · rw [honly, hcode]
      exact hinterrupted
    · rw [honly, hcode]
      exact hsucceeded
    · rw [hcode]
      exact hotherwise
    · intro other hother
      obtain rfl := hother.unique obtains
      exact printed_of_run hparse (installation.setting environment other) _ _ _ hend

end

/-- An installation without options. -/
def plain : Installation where
  dryRun := false
  config? := none
  verbosity := 0
  file := ⟨"units"⟩
  select := {}
  stopOnError := false
  markerRoot? := none

end Installation

/-- A host with a document of one unit, on which every tool succeeds and says nothing. -/
def Environment.quiet : Environment where
  machine :=
    { finds := fun _ => true
      execute := fun _ _ files => { ending := .exited 0, files }
      download := fun _ _ files => { result := .ok (), files } }
  files := { nodes := [(["home", "units"], .file "a\n".toUTF8)] }
  isRoot := true
  hostname := .ok "host"
  workDirectory := .ok ⟨"work"⟩

example : (Invocation.run .quiet Installation.plain.arguments).code = 0 ∧
    (Invocation.run .quiet Installation.plain.arguments).output.filterMap Output.own? =
      ["✓ a: completed", "", "1 completed, 0 skipped, 0 failed"] := by decide +kernel

/-- The same host with another document, whose script sends the program two signals. -/
def Environment.signalled : Environment :=
  { Environment.quiet with
    machine :=
      { Environment.quiet.machine with
        execute := fun _ command files =>
          if command.program = Machine.shell then
            { ending := .killed, files, signals := [.hangup, .terminate] }
          else { ending := .exited 0, files } }
    files := { nodes := [(["home", "units"], .file "a:\n  pre: kill\n".toUTF8)] } }

end Provision
