import Provision.Proofs.Document.Entries

/-!
# The content of a document

Nothing that an accepted document says is lost, invented or given to another unit. Its lines that
are not blank fall into sections, every section is one entry, and the fields of the entry's unit are
what the directives of the section say together.
-/

namespace Provision.Document

open Text

/-- The values that are given under a key, from the top to the bottom. -/
def valuesOf (key : Key) (directives : Directives) : List (List Char) :=
  (directives.filter fun pair => pair.1 = key).map Prod.snd

def textsOf (key : Key) (directives : Directives) : List String :=
  (valuesOf key directives).map String.ofList

/-- A `source` value: a file, a blank and what to write into the file of that name. -/
def IsSourceFile (sourcesDir : Path) (value : List Char) (entry : SourceFile) : Prop :=
  ∃ word c rest file, value = word ++ c :: rest ∧ (∀ x ∈ word, isBlank x = false) ∧
    isBlank c = true ∧ (Path.mk (String.ofList word)).fileName? = some file ∧
      entry = ⟨sourcesDir.join file, String.ofList (trimStart rest)⟩

/-- The fields of a unit, but for its name, say what the directives say and nothing else. -/
structure Combines (sourcesDir : Path) (directives : Directives) (unit : Installable) : Prop where
  known : ∀ item ∈ itemsOf .flags directives, (Flag.ofToken? item).isSome
  flags : unit.flags = Sorted.ofList (flagsOf directives)
  hosts : unit.hosts =
    Sorted.ofList ((itemsOf .hosts directives).map fun item => String.ofList (lower item))
  repositories : unit.repositories = (textsOf .repo directives).eraseDups
  sources : List.Forall₂ (IsSourceFile sourcesDir) (valuesOf .source directives) unit.sources
  url : unit.url?.toList = textsOf .deb directives
  preScript : unit.preScript?.toList = textsOf .pre directives
  postScript : unit.postScript?.toList = textsOf .post directives
  package : unit.package?.toList = textsOf .package directives
  delivery : unit.delivery =
    if valuesOf .deb directives = [] then .packageManager else .downloadedArchive
  archive : unit.archive? = none
  refresh : unit.refreshDue = false

/-! ## One more directive -/

section Snoc

variable {sourcesDir : Path} {directives : Directives} {unit next : Installable} {key : Key}
  {value : List Char}

theorem valuesOf_snoc (other : Key) : valuesOf other (directives ++ [(key, value)]) =
    valuesOf other directives ++ if key = other then [value] else [] := by
  by_cases h : key = other <;> simp [valuesOf, h]

theorem textsOf_snoc (other : Key) : textsOf other (directives ++ [(key, value)]) =
    textsOf other directives ++ if key = other then [String.ofList value] else [] := by
  unfold textsOf
  rw [valuesOf_snoc]
  split <;> simp

/-- What a fold in `Except` does to one part of its state, if every step does so. -/
theorem foldlM_eq_foldl {α β γ ε : Type} {f : β → α → Except ε β} {g : β → γ} {step : γ → α → γ}
    (hstep : ∀ b a next, f b a = .ok next → g next = step (g b) a) {xs : List α}
    {b final : β} (h : xs.foldlM f b = .ok final) : g final = xs.foldl step (g b) := by
  induction xs generalizing b with
  | nil =>
    obtain rfl := Except.ok.inj h
    rfl
  | cons a rest ih =>
    obtain ⟨next, hnext, hrest⟩ := foldlM_cons_eq_ok_iff.mp h
    rw [ih hrest, hstep b a next hnext, List.foldl_cons]

theorem sorted_ofList_append {α : Type} [LT α] [DecidableLT α] [DecidableEq α]
    (front back : List α) : Sorted.ofList (front ++ back) =
      back.foldl (fun set a => Sorted.insert a set) (Sorted.ofList front) :=
  List.foldl_append

theorem hosts_of_applyDirective (h : applyDirective sourcesDir unit .hosts value = .ok next) :
    next.hosts = ((items value).map fun item => String.ofList (lower item)).foldl
      (fun set host => Sorted.insert host set) unit.hosts := by
  rw [List.foldl_map]
  refine foldlM_eq_foldl (g := Installable.hosts) ?_ h
  intro mid item after hstep
  rw [(addHost_eq_ok hstep).2]

theorem flags_of_applyDirective (h : applyDirective sourcesDir unit .flags value = .ok next) :
    next.flags = ((items value).filterMap Flag.ofToken?).foldl
      (fun set flag => Sorted.insert flag set) unit.flags := by
  unfold applyDirective at h
  simp only at h
  cases hfold : (items value).foldlM addFlag unit with
  | error cause => rw [hfold] at h; cases h
  | ok mid =>
    rw [hfold] at h
    obtain ⟨rfl, -⟩ := checkExclusive_eq_ok h
    rw [List.foldl_filterMap]
    refine foldlM_eq_foldl (g := Installable.flags) ?_ hfold
    intro mid item after hstep
    obtain ⟨flag, hflag, -, rfl⟩ := addFlag_eq_ok hstep
    simp [hflag]

theorem repositories_of_applyDirective
    (h : applyDirective sourcesDir unit .repo value = .ok next) :
    next.repositories = unit.repositories ++
      if String.ofList value ∈ unit.repositories then [] else [String.ofList value] := by
  simp only [applyDirective] at h
  split at h
  · cases h
  · split at h
    · next hthere =>
      obtain rfl := Except.ok.inj h
      simp_all
    · next hnew =>
      obtain rfl := Except.ok.inj h
      simp_all

theorem eraseDups_snoc {α : Type} [DecidableEq α] (front : List α) (a : α) :
    (front ++ [a]).eraseDups = front.eraseDups ++ if a ∈ front.eraseDups then [] else [a] := by
  rw [List.eraseDups_append]
  by_cases h : a ∈ front <;> simp [List.removeAll, List.eraseDups_cons, h]

theorem isSourceFile_of_entry {entry : SourceFile}
    (h : sourceEntry? sourcesDir value = some entry) : IsSourceFile sourcesDir value entry := by
  obtain ⟨word, after, file, hcut, hfile, -, rfl⟩ := sourceEntry?_eq_some h
  obtain ⟨c, hc, hsplit, hfree⟩ := cut?_eq_some hcut
  exact ⟨word, c, after, file, hsplit, hfree, hc, hfile, rfl⟩

theorem combines_snoc (hunit : Combines sourcesDir directives unit)
    (h : applyDirective sourcesDir unit key value = .ok next) :
    Combines sourcesDir (directives ++ [(key, value)]) next := by
  obtain ⟨hknown, hflags, hhosts, hrepositories, hsources, hurl, hpre, hpost, hpackage, hdelivery,
    harchive, hrefresh⟩ := hunit
  -- Each key has a field of its own, and leaves the other fields and their values as they are.
  cases key with
  | hosts =>
    have hnew := hosts_of_applyDirective h
    obtain ⟨patterns, rfl⟩ : ∃ patterns, next = { unit with hosts := patterns } :=
      ⟨_, applyDirective_hosts h⟩
    constructor
    case hosts =>
      rw [itemsOf_snoc, if_pos rfl, List.map_append, sorted_ofList_append, ← hhosts]
      exact hnew
    all_goals simp_all [itemsOf_snoc, flagsOf_snoc, valuesOf_snoc, textsOf_snoc]
  | flags =>
    have hnew := flags_of_applyDirective h
    have hnewKnown := (applyFlags_inserts h).1
    obtain ⟨flags, rfl⟩ : ∃ flags, next = { unit with flags := flags } :=
      ⟨_, (applyDirective_flags h).1⟩
    constructor
    case known =>
      rw [itemsOf_snoc, if_pos rfl]
      exact List.forall_mem_append.mpr ⟨hknown, hnewKnown⟩
    case flags =>
      rw [flagsOf_snoc, if_pos rfl, sorted_ofList_append, ← hflags]
      exact hnew
    all_goals simp_all [itemsOf_snoc, valuesOf_snoc, textsOf_snoc]
  | deb | pre | post | package =>
    obtain ⟨hnone, rfl⟩ := setOnce_eq_ok h
    constructor <;> simp_all [itemsOf_snoc, flagsOf_snoc, valuesOf_snoc, textsOf_snoc]
  | repo =>
    have hnew := repositories_of_applyDirective h
    obtain ⟨list, rfl⟩ : ∃ list, next = { unit with repositories := list } := by
      obtain ⟨-, ⟨-, rfl⟩ | rfl⟩ := applyDirective_repo h
      · exact ⟨next.repositories, rfl⟩
      · exact ⟨_, rfl⟩
    constructor
    case repositories =>
      rw [textsOf_snoc, if_pos rfl, eraseDups_snoc, ← hrepositories]
      exact hnew
    all_goals simp_all [itemsOf_snoc, flagsOf_snoc, valuesOf_snoc, textsOf_snoc]
  | source =>
    obtain ⟨-, entry, hentry, rfl⟩ := applyDirective_source h
    constructor
    case sources =>
      rw [valuesOf_snoc, if_pos rfl]
      exact List.rel_append hsources (.cons (isSourceFile_of_entry hentry) .nil)
    all_goals simp_all [itemsOf_snoc, flagsOf_snoc, valuesOf_snoc, textsOf_snoc]

end Snoc

theorem combines_nil (sourcesDir : Path) (name : String) : Combines sourcesDir [] { name } := by
  constructor <;> simp [itemsOf, flagsOf, textsOf, valuesOf, Sorted.ofList]

theorem combines_of_applyAll {sourcesDir : Path} {name : String} {directives : Directives}
    {unit : Installable} (h : applyAll sourcesDir { name } directives = .ok unit) :
    Combines sourcesDir directives unit := by
  induction directives using List.reverseRecOn generalizing unit with
  | nil =>
    obtain rfl := Except.ok.inj h
    exact combines_nil sourcesDir name
  | append_singleton earlier last ih =>
    obtain ⟨mid, hmid, hlast⟩ := applyAll_snoc_eq_ok_iff.mp h
    exact combines_snoc (ih hmid) hlast

/-! ## Sections and entries -/

/-- A text without the colon that it may have at its end. -/
def IsWithoutColon (text rest : List Char) : Prop :=
  text = rest ++ [':'] ∨ text = rest ∧ rest.getLast? ≠ some ':'

/-- The entry has the number and the name of the section's first line, and its unit the directives
that the other lines are. -/
structure Section.Declares (sourcesDir : Path) (part : Section) (entry : Entry) : Prop where
  line : entry.line = part.head.number
  name : ∃ rest, IsWithoutColon part.head.text rest ∧ entry.unit.name = String.ofList (trim rest)
  content : ∃ directives : Directives,
    List.Forall₂ (fun line pair => IsDirective line pair.1 pair.2) part.block directives ∧
      Combines sourcesDir directives entry.unit

theorem exists_withoutColon (part : Section) :
    ∃ rest, IsWithoutColon part.head.text rest ∧ part.name = trim rest := by
  unfold Section.name Reading.declared
  split
  · next hcolon =>
    refine ⟨part.head.text.dropLast, .inl ?_, rfl⟩
    exact (List.dropLast_append_getLast? _ hcolon).symm
  · next hcolon => exact ⟨part.head.text, .inr ⟨rfl, hcolon⟩, rfl⟩

theorem forall₂_directive {block : List Line}
    (h : ∀ line ∈ block, (Reading.directive? line).isSome) :
    List.Forall₂ (fun line (pair : Key × List Char) => IsDirective line pair.1 pair.2) block
      (block.filterMap Reading.directive?) := by
  induction block with
  | nil => exact .nil
  | cons line rest ih =>
    rw [List.forall_mem_cons] at h
    obtain ⟨pair, hpair⟩ := Option.isSome_iff_exists.mp h.1
    rw [List.filterMap_cons_some hpair]
    exact .cons (directive?_eq_some_iff.mp hpair) (ih h.2)

theorem Section.Makes.declares {sourcesDir : Path} {part : Section} {entry : Entry}
    (h : part.Makes sourcesDir entry) : part.Declares sourcesDir entry where
  line := h.line
  name := by
    obtain ⟨rest, hrest, hname⟩ := exists_withoutColon part
    exact ⟨rest, hrest, by rw [h.name_eq, hname]⟩
  content := ⟨part.directives, forall₂_directive h.good.given, combines_of_applyAll h.unit⟩

/-! ## Whole documents -/

/-- How the entries of a catalog come from lines: the lines fall into sections, each of a line at
the margin and the indented lines below it, and every section is one entry. -/
structure Contents (sourcesDir : Path) (lines : List Line) (catalog : Catalog) : Prop where
  covered : (sections lines).flatMap Section.lines = lines
  heads : (sections lines).map Section.head = lines.filter fun line => !line.isIndented
  blocks : ∀ part ∈ sections lines, ∀ line ∈ part.block, line.isIndented = true
  entries : List.Forall₂ (Section.Declares sourcesDir) (sections lines) catalog.entries

/-- An accepted text has the content of its lines that are not blank. -/
theorem contents_of_parse {sourcesDir : Path} {text : List Char} {catalog : Catalog}
    (h : parse sourcesDir text = .ok catalog) :
    Contents sourcesDir (filledLines text) catalog where
  covered := sections_of_parse h
  heads := map_head_sections _
  blocks := by
    intro part hpart line hline
    have hshaped := shaped_of_mem_sections (fun _ => isBlank_of_mem_filledLines) hpart
    exact (hshaped.block line hline).2
  entries := (entries_of_parse h).imp fun _ _ => Section.Makes.declares

/-- A document with a repository that is given twice, flags in two lists and lines that do not
count. -/
def mixedText : List Char :=
  ("a:\n  repo: r\n\n# none\n  flags: lead, post_once\n  repo: s\nb: # two\n  flags: force\n" ++
    "  repo: r\n\n  Repo: r \n  flags: virtual\n  post: x \\\n   y\n").toList

def mixedCatalog : Catalog :=
  ⟨[⟨1, { name := "a", repositories := ["r", "s"], flags := [.lead, .postOnce] }⟩,
    ⟨7, { name := "b", repositories := ["r"], flags := [.force, .virtual]
          postScript? := some "x \n   y" }⟩]⟩

theorem contents_of_mixed_parse :
    parse ⟨"s"⟩ mixedText = .ok mixedCatalog ∧
      Contents ⟨"s"⟩ (filledLines mixedText) mixedCatalog := by
  have h : parse ⟨"s"⟩ mixedText = .ok mixedCatalog := by decide +kernel
  exact ⟨h, contents_of_parse h⟩

end Provision.Document
