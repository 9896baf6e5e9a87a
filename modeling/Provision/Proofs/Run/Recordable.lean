import Provision.Proofs.Document.Proper
import Provision.Proofs.Files.Entry
import Provision.Proofs.Run.Marker
import Provision.Proofs.Run.Moves

/-!
# Names that can be recorded

The name of a unit becomes part of a file name, but a document may name a unit as no file can be
named. A script of such a unit that may run only once is run, and then its marker cannot be left:
the run ends, and the next one does not know of the script.
-/

namespace Provision

open Files

namespace MarkerStore

/-- A marker whose file can have its name, under a path that can be looked up. -/
structure Recordable (store : MarkerStore) (unit : String) (phase : Phase) : Prop where
  no_nul : Char.ofNat 0 ∉ unit.toList
  name : unit.utf8ByteSize + 1 + phase.onceFlag.token.utf8ByteSize ≤ nameLimit
  path : (store.path unit phase).text.utf8ByteSize ≤ pathLimit

/-- The directory of markers can be made, and then no other directory is in the marker's place. -/
structure Open (store : MarkerStore) (files : Files) (unit : String) (phase : Phase) : Prop where
  made : (files.makeDirectories store.root).2 = none
  free : (files.makeDirectories store.root).1.isDirectory (store.path unit phase) = false

variable {store : MarkerStore} {files : Files} {unit : String} {phase : Phase}

theorem utf8ByteSize_markName (unit : String) (phase : Phase) : (markName unit phase).utf8ByteSize =
    unit.utf8ByteSize + 1 + phase.onceFlag.token.utf8ByteSize := by
  rw [markName, String.utf8ByteSize_append, String.utf8ByteSize_append]
  rfl

theorem nul_mem_path_iff (hunit : '/' ∉ unit.toList) (hroot : store.root.textFault? = none) :
    Char.ofNat 0 ∈ (store.path unit phase).text.toList ↔ Char.ofNat 0 ∈ unit.toList := by
  have hrootNul : Char.ofNat 0 ∉ store.root.text.toList := by
    simpa using (Path.textFault?_eq_none hroot).1
  have htoken : Char.ofNat 0 ∉ phase.onceFlag.token.toList := by cases phase <;> decide
  rw [path_eq, Path.join_eq _ (isName_markName hunit phase)]
  split
  · simp [markName, htoken]
  · split <;> simp [markName, htoken, hrootNul]

theorem textFault?_path_iff (hunit : '/' ∉ unit.toList) (hroot : store.root.textFault? = none) :
    (store.path unit phase).textFault? = none ↔ Char.ofNat 0 ∉ unit.toList ∧
      (store.path unit phase).text.utf8ByteSize ≤ pathLimit := by
  have hnulIff : Char.ofNat 0 ∈ (store.path unit phase).text.toList ↔ Char.ofNat 0 ∈ unit.toList :=
    nul_mem_path_iff hunit hroot
  rw [← hnulIff]
  unfold Path.textFault?
  by_cases hnul : Char.ofNat 0 ∈ (store.path unit phase).text.toList
  · simp [hnul]
  · simp [hnul]

theorem isOk_create (h : (files.makeDirectories store.root).2 = none) :
    (store.create files unit phase).2.isOk = ((files.makeDirectories store.root).1.write
      (store.path unit phase) ByteArray.empty).isOk := by
  have hcreated := store.created files unit phase
  generalize store.create files unit phase = result at hcreated ⊢
  cases hcreated with
  | done making writing | unwritten making writing =>
    rw [making, writing]
    rfl
  | unmade making =>
    rw [making] at h
    cases h

theorem Open.textFault?_root (h : store.Open files unit phase) : store.root.textFault? = none := by
  obtain ⟨l, hreaches⟩ := exists_reaches_of_makeDirectories h.made
  exact hreaches.text

theorem isOk_create_iff (hunit : '/' ∉ unit.toList) (h : store.Open files unit phase) :
    (store.create files unit phase).2.isOk = true ↔ store.Recordable unit phase := by
  obtain ⟨l, hreaches⟩ := exists_reaches_of_makeDirectories h.made
  rw [isOk_create h.made, path_eq, isOk_write_join_iff hreaches (isName_markName hunit phase),
    ← path_eq, textFault?_path_iff hunit hreaches.text, utf8ByteSize_markName]
  constructor
  · rintro ⟨⟨hnul, hpath⟩, hname, -⟩
    exact ⟨hnul, hname, hpath⟩
  · rintro ⟨hnul, hname, hpath⟩
    exact ⟨⟨hnul, hpath⟩, hname, h.free⟩

theorem has_of_create {after : Files} {path : Path}
    (h : store.create files unit phase = (after, .ok path)) :
    store.has after unit phase = true := by
  have hcreated := store.created files unit phase
  rw [h] at hcreated
  cases hcreated with
  | done making writing => exact exists?_of_write writing

theorem recordable_of_has (hunit : '/' ∉ unit.toList) (hroot : store.root.textFault? = none)
    (h : store.has files unit phase = true) : store.Recordable unit phase := by
  obtain ⟨htext, hname⟩ := spelled_of_exists? (isName_markName hunit phase) h
  rw [← path_eq, textFault?_path_iff hunit hroot] at htext
  rw [utf8ByteSize_markName] at hname
  exact ⟨htext.1, hname, htext.2⟩

theorem open_of_absent (htree : files.IsTree) (hroot : store.root.IsStraight)
    (habsent : files.at? (store.root.place files.cwd) = none)
    (hmade : (files.makeDirectories store.root).2 = none) (hunit : '/' ∉ unit.toList)
    (phase : Phase) : store.Open files unit phase := by
  refine ⟨hmade, ?_⟩
  have hnone : store.has (files.makeDirectories store.root).1 unit phase = false := by
    rw [has_makeDirectories htree hroot hunit]
    exact has_of_no_directory htree hroot (by simp [habsent]) hunit phase
  rw [Bool.eq_false_iff]
  intro hthere
  rw [has, exists?_of_isDirectory hthere] at hnone
  cases hnone

end MarkerStore

/-! ## Scripts -/

/-- A script that may run only once has just run, and it is the first time. -/
structure Work.RunsOnce (setting : Setting) (work told : Work) (phase : Phase) : Prop where
  real : setting.dryRun = false
  once : work.unit.isOnce phase = true
  new : setting.markers.has work.session.files work.unit.name phase = false
  told : ∃ text, work.unit.script? phase = some text ∧
    work.tell setting (.ofPhase phase) (.runScript text) = (told, none)

variable {setting : Setting} {work told : Work} {phase : Phase}

/-- What is done with the script of a unit once it has run is to leave its marker. -/
theorem Work.RunsOnce.leaves (h : work.RunsOnce setting told phase) :
    told.unit.name = work.unit.name ∧
      (work.runScript setting phase).2 = (told.leaveMarker setting phase).2 ∧
      (work.runScript setting phase).1.session = (told.leaveMarker setting phase).1.session := by
  obtain ⟨text, hscript, htold⟩ := h.told
  have hname : told.unit.name = work.unit.name := by
    rcases Goes.tell_cases setting (.ofPhase phase) (.runScript text) work with
      ⟨answer, htell, -⟩ | ⟨failure, htell⟩
    · rw [htold] at htell
      cases htell
      rfl
    · rw [htold] at htell
      cases htell
  refine ⟨hname, ?_⟩
  unfold runScript really
  simp only [hscript, h.once, h.new, h.real, htold, Bool.and_false, Bool.false_eq_true, if_false,
    if_true]
  generalize told.leaveMarker setting phase = left
  obtain ⟨acted, stop?⟩ := left
  cases stop? <;> exact ⟨rfl, rfl⟩

/-- How the work with a script that has run ends: its marker is there, or the run is over. -/
inductive MarkerStore.Ends (store : MarkerStore) (unit : String) (phase : Phase) :
    Work × Option Stop → Prop
  | marked {work : Work} (recordable : store.Recordable unit phase)
      (has : store.has work.session.files unit phase = true) : Ends store unit phase (work, none)
  | lost {work : Work} {message : String} (unrecordable : ¬ store.Recordable unit phase)
      (has : store.has work.session.files unit phase = false) :
      Ends store unit phase (work, some (.fatal (.environment message)))

theorem Work.RunsOnce.ends (h : work.RunsOnce setting told phase)
    (hunit : '/' ∉ work.unit.name.toList)
    (hopen : setting.markers.Open told.session.files work.unit.name phase) :
    setting.markers.Ends work.unit.name phase (work.runScript setting phase) := by
  obtain ⟨hname, hstop, hsession⟩ := h.leaves
  have hiff := MarkerStore.isOk_create_iff hunit hopen
  generalize work.runScript setting phase = ran at hstop hsession ⊢
  obtain ⟨final, stop?⟩ := ran
  rcases told.leaveMarker_cases setting phase with
    ⟨files, path, hleave, hcreate⟩ | ⟨files, failure, hleave, hcreate⟩
  · rw [hleave] at hstop hsession
    rw [hname] at hcreate
    rw [hcreate] at hiff
    obtain rfl : stop? = none := hstop
    refine .marked (hiff.mp rfl) ?_
    rw [hsession]
    exact MarkerStore.has_of_create hcreate
  · rw [hleave] at hstop
    rw [hname] at hcreate
    rw [hcreate] at hiff
    obtain rfl : stop? = some (.fatal (.environment failure.text)) := hstop
    have hnot : ¬ setting.markers.Recordable work.unit.name phase := by
      intro hrecordable
      cases hiff.mpr hrecordable
    refine .lost hnot ?_
    rw [Bool.eq_false_iff]
    intro hhas
    exact hnot (MarkerStore.recordable_of_has hunit hopen.textFault?_root hhas)

/-! ## Documents -/

namespace Document

theorem no_slash_of_parse {sourcesDir : Path} {text : List Char} {catalog : Catalog}
    (h : parse sourcesDir text = .ok catalog) {entry : Entry} (hentry : entry ∈ catalog.entries) :
    '/' ∉ entry.unit.name.toList := by
  obtain ⟨part, -, hmakes⟩ := exists_section_of_mem (entries_of_parse h) hentry
  exact hmakes.proper.no_slash

/-- Of the units of an accepted document just those with recordable names get their markers. The
script of another one is run all the same, and then the run is over. -/
theorem recordable_of_parse {sourcesDir : Path} {text : List Char} {catalog : Catalog}
    (h : parse sourcesDir text = .ok catalog) :
    ∀ entry ∈ catalog.entries, ∀ phase,
      (∀ (store : MarkerStore) (files : Files), files.IsTree → store.root.IsStraight →
        files.at? (store.root.place files.cwd) = none →
        (files.makeDirectories store.root).2 = none → store.Open files entry.unit.name phase) ∧
      (∀ (store : MarkerStore) (files : Files), store.Open files entry.unit.name phase →
        ((store.create files entry.unit.name phase).2.isOk = true ↔
          store.Recordable entry.unit.name phase)) ∧
      ∀ (setting : Setting) (work told : Work), work.unit.name = entry.unit.name →
        work.RunsOnce setting told phase →
        setting.markers.Open told.session.files entry.unit.name phase →
        setting.markers.Ends entry.unit.name phase (work.runScript setting phase) := by
  intro entry hentry phase
  have hslash := no_slash_of_parse h hentry
  refine ⟨fun store files htree hroot habsent hmade => ?_, fun store files hopen => ?_,
    fun setting work told hname hruns hopen => ?_⟩
  · exact MarkerStore.open_of_absent htree hroot habsent hmade hslash phase
  · exact MarkerStore.isOk_create_iff hslash hopen
  · rw [← hname] at hslash hopen ⊢
    exact hruns.ends hslash hopen

/-- A host without markers on which every call succeeds. -/
def freshHost : Setting where
  collaborators := ⟨fun _ _ files => { result := .ok "", files }⟩
  markers := ⟨⟨"sem"⟩⟩
  hostname := "host"

/-- A document with a script that may run only once. -/
def onceText (name : List Char) : List Char := name ++ ":\n  flags: once\n  pre: echo\n".toList

def onceUnit (name : List Char) : Installable where
  name := String.ofList name
  flags := [.bothOnce]
  preScript? := some "echo"

/-- The work on the unit once the script has been called. -/
def onceTold (name : List Char) : Work :=
  (Work.tell freshHost .preScript (.runScript "echo") ⟨onceUnit name, { files := {} }, false, []⟩).1

theorem recordable_of_once_parse :
    parse ⟨"s"⟩ (onceText ['a']) = .ok ⟨[⟨1, onceUnit ['a']⟩]⟩ ∧
    freshHost.markers.Open {} "a" .pre ∧ freshHost.markers.Recordable "a" .pre ∧
    (freshHost.markers.create {} "a" .pre).2.isOk = true ∧
    Work.RunsOnce freshHost ⟨onceUnit ['a'], { files := {} }, false, []⟩ (onceTold ['a']) .pre ∧
    freshHost.markers.Ends "a" .pre
      (Work.runScript freshHost .pre ⟨onceUnit ['a'], { files := {} }, false, []⟩) := by
  have h : parse ⟨"s"⟩ (onceText ['a']) = .ok ⟨[⟨1, onceUnit ['a']⟩]⟩ := by decide +kernel
  obtain ⟨hopens, hcreates, hends⟩ := recordable_of_parse h _ List.mem_cons_self .pre
  have hopen := hopens freshHost.markers {} (isTree_of_no_nodes _)
    (by unfold Path.IsStraight; decide +kernel) (by decide +kernel) (by decide +kernel)
  have hrecordable : freshHost.markers.Recordable "a" .pre :=
    ⟨by decide, by decide +kernel, by decide +kernel⟩
  have hruns : Work.RunsOnce freshHost ⟨onceUnit ['a'], { files := {} }, false, []⟩
      (onceTold ['a']) .pre :=
    ⟨rfl, by decide, by decide +kernel, "echo", rfl, rfl⟩
  exact ⟨h, hopen, hrecordable, (hcreates _ _ hopen).mpr hrecordable, hruns,
    hends _ _ _ rfl hruns hopen⟩

/-- Sixty-two letters of four bytes. -/
def longName : List Char := List.replicate 62 '𝛼'

/-- A document is accepted with a name that is too long for the name of a marker, the script runs,
and its marker is lost. -/
theorem long_name_is_not_recorded :
    parse ⟨"s"⟩ (onceText longName) = .ok ⟨[⟨1, onceUnit longName⟩]⟩ ∧
    Files.exists? {} freshHost.markers.root = false ∧
    (Files.makeDirectories {} freshHost.markers.root).2 = none ∧
    (∀ phase, (freshHost.markers.create {} (onceUnit longName).name phase).2.isOk = false) ∧
    (∃ answer shown, (onceTold longName).session.trace =
      [.called (.runScript "echo") (.ok answer) shown]) ∧
    ∃ final message,
      Work.runScript freshHost .pre ⟨onceUnit longName, { files := {} }, false, []⟩ =
        (final, some (.fatal (.environment message))) ∧
      freshHost.markers.has final.session.files (onceUnit longName).name .pre = false := by
  have h : parse ⟨"s"⟩ (onceText longName) = .ok ⟨[⟨1, onceUnit longName⟩]⟩ := by decide +kernel
  have hmade : (Files.makeDirectories {} freshHost.markers.root).2 = none := by decide +kernel
  have hentry : Entry.mk 1 (onceUnit longName) ∈ [Entry.mk 1 (onceUnit longName)] :=
    List.mem_cons_self
  have hslash := no_slash_of_parse h hentry
  have hopen (phase : Phase) : freshHost.markers.Open {} (onceUnit longName).name phase :=
    MarkerStore.open_of_absent (isTree_of_no_nodes _) (by unfold Path.IsStraight; decide +kernel)
      (by decide +kernel) hmade hslash phase
  have hnot (phase : Phase) : ¬ freshHost.markers.Recordable (onceUnit longName).name phase := by
    intro hrecordable
    have hlength := hrecordable.name
    revert hlength
    cases phase <;> decide +kernel
  have hruns : Work.RunsOnce freshHost ⟨onceUnit longName, { files := {} }, false, []⟩
      (onceTold longName) .pre := by
    refine ⟨rfl, by decide, ?_, "echo", rfl, rfl⟩
    rw [Bool.eq_false_iff]
    intro hhas
    exact hnot .pre (MarkerStore.recordable_of_has hslash (hopen .pre).textFault?_root hhas)
  refine ⟨h, by decide +kernel, hmade, fun phase => ?_, ⟨"", ByteArray.empty, rfl⟩, ?_⟩
  · rw [Bool.eq_false_iff]
    intro hok
    exact hnot phase ((MarkerStore.isOk_create_iff hslash (hopen phase)).mp hok)
  · have hends := hruns.ends hslash (hopen .pre)
    generalize Work.runScript freshHost .pre _ = ran at hends ⊢
    cases hends with
    | marked recordable => exact absurd recordable (hnot .pre)
    | lost _ has => exact ⟨_, _, rfl, has⟩

end Document

end Provision
