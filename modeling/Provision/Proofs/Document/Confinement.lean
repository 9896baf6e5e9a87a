import Provision.Proofs.Document.Content
import Provision.Proofs.Document.Proper
import Provision.Proofs.Files.Components

/-!
# Where source files go

A source file stands directly in the sources directory. Its name is the last name in the first word
of the directive, whatever directories the word leads through, and its content is the rest of the
value.
-/

namespace Provision

open Text

/-! ## Components -/

namespace Path

def Component.name? : Component → Option String
  | .name text => some text
  | _ => none

/-- The names among the steps of a path. -/
def stepNames (p : Path) : List String := p.components.filterMap Component.name?

/-- The file name is the last of the names in a path, which is the last piece between slashes that
is not idle. -/
theorem last_of_fileName? {p : Path} {name : String} (h : p.fileName? = some name) :
    p.stepNames.getLast? = some name ∧
      ((pieces '/' p.text.toList).filter (!idle ·)).getLast? = some name.toList := by
  have hlast : p.components.getLast? = some (.name name) := by
    unfold fileName? at h
    split at h
    · next hlast => rw [hlast, Option.some.inj h]
    · cases h
  constructor
  · obtain ⟨front, hfront⟩ := List.getLast?_eq_some_iff.mp hlast
    simp [stepNames, hfront, Component.name?]
  obtain ⟨first, rest, hpieces⟩ := exists_pieces p.text.toList
  rw [components_of_pieces hpieces] at hlast
  rw [hpieces, List.filter_cons]
  rcases List.eq_nil_or_concat' (rest.filter (!idle ·)) with hrest | ⟨init, last, hrest⟩
  · rw [hrest] at hlast ⊢
    cases first with
    | nil => cases rest <;> simp at hlast
    | cons c cs =>
      have hstep : step (c :: cs) = .name name := by simpa using hlast
      obtain ⟨rfl, hhere, -⟩ := step_eq_name hstep
      simp [idle, hhere]
  · rw [hrest] at hlast ⊢
    have hstep : step last = .name name := by simpa using hlast
    obtain ⟨rfl, -, -⟩ := step_eq_name hstep
    split <;> simp [List.getLast?_cons]

end Path

namespace Document

/-! ## Source files -/

/-- A `source` value is a word, a blank and a content, and makes a file of the sources directory: the
word gives its name, in which there is no slash and which is neither `.` nor `..`. -/
structure IsConfined (sourcesDir : Path) (value word rest : List Char) (name : String)
    (source : SourceFile) : Prop where
  split : ∃ c, isBlank c = true ∧ value = word ++ c :: rest
  first : ∀ x ∈ word, isBlank x = false
  isName : Path.IsName name
  last : (Path.mk (String.ofList word)).stepNames.getLast? = some name
  piece : ((pieces '/' word).filter (!Path.idle ·)).getLast? = some name.toList
  components : source.path.components = sourcesDir.components ++ [.name name]
  content : source.content = String.ofList (trimStart rest)
  filled : source.content ≠ ""

theorem trimStart_ne_nil_of_trimmed {front rest : List Char} {c : Char} (hc : isBlank c = true)
    (h : Trimmed (front ++ c :: rest)) : trimStart rest ≠ [] := by
  intro hnil
  have hblank : ∀ x ∈ c :: rest, isBlank x = true := by
    simpa [hc] using List.dropWhile_eq_nil_iff.mp hnil
  obtain ⟨before, last, hends, hlast⟩ := h.ends
  have hmem : last ∈ c :: rest := by
    have hgetLast := congrArg List.getLast? hends
    rw [List.getLast?_append_of_ne_nil _ (List.cons_ne_nil c rest), List.getLast?_concat] at hgetLast
    exact List.mem_of_getLast? hgetLast
  rw [hblank last hmem] at hlast
  cases hlast

theorem exists_isConfined {sourcesDir : Path} {value : List Char} {source : SourceFile}
    (hvalue : Trimmed value) (h : IsSourceFile sourcesDir value source) :
    ∃ word rest name, IsConfined sourcesDir value word rest name source := by
  obtain ⟨word, c, rest, name, rfl, hword, hc, hfile, rfl⟩ := h
  have hname := Path.isName_of_fileName? hfile
  obtain ⟨hlast, hpiece⟩ := Path.last_of_fileName? hfile
  refine ⟨word, rest, name, ⟨c, hc, rfl⟩, hword, hname, hlast, ?_, Path.components_join _ hname, rfl,
    ?_⟩
  · simpa using hpiece
  · simpa using trimStart_ne_nil_of_trimmed hc hvalue

theorem trimmed_of_mem_valuesOf {block : List Line} {directives : Directives}
    (h : List.Forall₂ (fun line pair => IsDirective line pair.1 pair.2) block directives) (key : Key) :
    ∀ value ∈ valuesOf key directives, Trimmed value := by
  intro value hvalue
  obtain ⟨pair, hpair, rfl⟩ := List.mem_map.mp hvalue
  obtain ⟨index, hindex, rfl⟩ := List.getElem_of_mem (List.mem_filter.mp hpair).1
  have hline := h.get (by rw [h.length_eq]; exact hindex) hindex
  exact trimmed_of_isDirective hline

/-- The source files of the entry's unit are those of the section's `source` directives, and each is
named by the last name in the first word of its directive. -/
def Section.Confines (sourcesDir : Path) (part : Section) (entry : Entry) : Prop :=
  ∃ directives : Directives,
    List.Forall₂ (fun line pair => IsDirective line pair.1 pair.2) part.block directives ∧
      List.Forall₂ (fun value source =>
          ∃ word rest name, IsConfined sourcesDir value word rest name source)
        (valuesOf .source directives) entry.unit.sources

/-- Every source file of an accepted document stands directly in the sources directory. -/
theorem confined_of_parse {sourcesDir : Path} {text : List Char} {catalog : Catalog}
    (h : parse sourcesDir text = .ok catalog) :
    List.Forall₂ (Section.Confines sourcesDir) (sections (filledLines text)) catalog.entries := by
  refine (entries_of_parse h).imp fun part entry hmakes => ?_
  obtain ⟨directives, hdirectives, hcombines⟩ := hmakes.declares.content
  refine ⟨directives, hdirectives, ?_⟩
  have hvalues := trimmed_of_mem_valuesOf hdirectives .source
  exact ((List.forall₂_and_left _ _).mpr ⟨hvalues, hcombines.sources⟩).imp
    fun _ _ hboth => exists_isConfined hboth.1 hboth.2

/-- A document whose sources lead up, through the root and through idle steps, and a name of dots. -/
def straySources : List Char :=
  ("a:\n  source: ../../etc/x.list/ \t deb http://x\n  source: /..//./y//./. \\\n deb y\nb\n" ++
    "c:\n  source: ... z # z\n").toList

def strayCatalog : Catalog :=
  ⟨[⟨1, { name := "a", sources := [⟨⟨"./s//x.list"⟩, "deb http://x"⟩, ⟨⟨"./s//y"⟩, "deb y"⟩] }⟩,
    ⟨5, { name := "b" }⟩, ⟨6, { name := "c", sources := [⟨⟨"./s//..."⟩, "z"⟩] }⟩]⟩

theorem confined_of_stray_parse :
    parse ⟨"./s//"⟩ straySources = .ok strayCatalog ∧
      List.Forall₂ (Section.Confines ⟨"./s//"⟩) (sections (filledLines straySources))
        strayCatalog.entries := by
  have h : parse ⟨"./s//"⟩ straySources = .ok strayCatalog := by decide +kernel
  exact ⟨h, confined_of_parse h⟩

end Document

end Provision
