import Mathlib.Data.List.Basic
import Mathlib.Data.Option.Basic
import Provision.Proofs.Selection.Judgement
import Provision.Proofs.Selection.Options

/-!
# Restrictions on a command line

Who lists names or flags with `--only` or `--only-flags` selects units that have one of them. But a
name of blanks is none, and an `--only` that lists no other name restricts nothing.
-/

namespace Provision

open Text

namespace Arguments.Opt

variable {opt : Opt} {words : List String}

/-- The items of the lists that words give to an option. -/
def itemsIn (opt : Opt) (words : List String) : List String :=
  (opt.valuesIn words).flatMap Given.items

/-- The items without the blanks around them. -/
def namesIn (opt : Opt) (words : List String) : List String :=
  (opt.itemsIn words).map fun item => String.ofList (trim item.toList)

/-- The flags that the items are tokens of. -/
def flagsIn (opt : Opt) (words : List String) : List Flag :=
  (opt.itemsIn words).filterMap fun item => Flag.ofToken? item.toList

theorem itemsIn_ne_nil (h : opt.valuesIn words ≠ []) : opt.itemsIn words ≠ [] := by
  obtain ⟨text, rest, hvalues⟩ := List.exists_cons_of_ne_nil h
  rw [itemsIn, hvalues, List.flatMap_cons]
  exact List.append_ne_nil_of_left_ne_nil (Given.items_ne_nil text) _

end Arguments.Opt

namespace SelectOptions

open Arguments

variable {words : List String} {arguments : Arguments} {select : SelectOptions}

theorem mem_names {items : List String} {name : String} : name ∈ names items ↔
    name ∈ items.map (fun item => String.ofList (trim item.toList)) ∧ name ≠ "" := by
  rw [names, Sorted.mem_ofList, List.mem_filter]
  simp

theorem names_eq_nil {items : List String}
    (h : ∀ name ∈ items.map (fun item => String.ofList (trim item.toList)), name = "") :
    names items = [] := by
  rw [List.eq_nil_iff_forall_not_mem]
  intro name hname
  obtain ⟨hmem, hne⟩ := mem_names.mp hname
  exact hne (h name hmem)

theorem only_of_parse (h : parse words = .ok arguments)
    (hselect : arguments.job.select? = some select) : select.only = Opt.only.itemsIn words := by
  have hread := Listing.names.get_of_parse h hselect
  exact List.map_injective_iff.mpr (Option.some_injective String) hread

theorem onlyFlags_of_parse (h : parse words = .ok arguments)
    (hselect : arguments.job.select? = some select) :
    select.onlyFlags.map some =
      (Opt.onlyFlags.itemsIn words).map fun item => Flag.ofToken? item.toList :=
  Listing.flags.get_of_parse h hselect

theorem mem_onlyNames (h : parse words = .ok arguments)
    (hselect : arguments.job.select? = some select) {name : String} :
    name ∈ select.criteria.onlyNames ↔ name ∈ Opt.only.namesIn words ∧ name ≠ "" := by
  show name ∈ names select.only ↔ _
  rw [mem_names, only_of_parse h hselect]
  rfl

theorem mem_onlyFlags (h : parse words = .ok arguments)
    (hselect : arguments.job.select? = some select) {flag : Flag} :
    flag ∈ select.criteria.onlyFlags ↔ flag ∈ Opt.onlyFlags.flagsIn words := by
  have hread := onlyFlags_of_parse h hselect
  calc flag ∈ select.criteria.onlyFlags
      ↔ some flag ∈ select.onlyFlags.map some := by
        rw [List.mem_map_of_injective (Option.some_injective _)]
        exact Sorted.mem_ofList flag select.onlyFlags
    _ ↔ flag ∈ Opt.onlyFlags.flagsIn words := by
        rw [hread, Opt.flagsIn, List.mem_map, List.mem_filterMap]

theorem onlyFlags_ne_nil (h : parse words = .ok arguments)
    (hselect : arguments.job.select? = some select) (hgiven : Opt.onlyFlags.valuesIn words ≠ []) :
    select.criteria.onlyFlags ≠ [] := by
  have hread := onlyFlags_of_parse h hselect
  have hne : select.onlyFlags ≠ [] := by
    intro hnil
    rw [hnil, List.map_nil, eq_comm, List.map_eq_nil_iff] at hread
    exact Opt.itemsIn_ne_nil hgiven hread
  obtain ⟨flag, rest, hflags⟩ := List.exists_cons_of_ne_nil hne
  refine List.ne_nil_of_mem (a := flag) ?_
  show flag ∈ Sorted.ofList select.onlyFlags
  rw [Sorted.mem_ofList, hflags]
  exact List.mem_cons_self

/-- A unit that is selected has one of the names and one of the flags that its command line lists,
but for an `--only` without a name, which is as good as none. -/
theorem restricted_of_parse (h : parse words = .ok arguments)
    (hselect : arguments.job.select? = some select) :
    (∀ unit snapshot hostname, select.criteria.judge unit snapshot hostname = .install false →
      ((∃ name ∈ Opt.only.namesIn words, name ≠ "") → unit.name ∈ Opt.only.namesIn words) ∧
      (Opt.onlyFlags.valuesIn words ≠ [] →
        ∃ flag ∈ unit.flags, flag ∈ Opt.onlyFlags.flagsIn words)) ∧
    ((∀ name ∈ Opt.only.namesIn words, name = "") →
      select.criteria = { select with only := [] }.criteria) := by
  constructor
  · intro unit snapshot hostname hjudge
    have hpasses := (Criteria.judge_eq_selected_iff.mp hjudge).2
    constructor
    · rintro ⟨name, hname, hne⟩
      have hrestricts : select.criteria.onlyNames ≠ [] :=
        List.ne_nil_of_mem ((mem_onlyNames h hselect).mpr ⟨hname, hne⟩)
      exact ((mem_onlyNames h hselect).mp (hpasses.onlyNames.resolve_left hrestricts)).1
    · intro hgiven
      obtain ⟨flag, hflag, hmem⟩ :=
        hpasses.onlyFlags.resolve_left (onlyFlags_ne_nil h hselect hgiven)
      exact ⟨flag, hflag, (mem_onlyFlags h hselect).mp hmem⟩
  · intro hblank
    have hnone : names select.only = [] := by
      rw [only_of_parse h hselect]
      exact names_eq_nil hblank
    have hempty : names [] = [] := rfl
    simp only [criteria, hnone, hempty]

/-- A command line with two lists of names, the second with an empty item, and a list of flags. -/
def restrictedLine : List String :=
  ["-v", "install", "--only", "a", "p.txt", "--only= b ,", "--only-flags", "Lead, trail"]

def restrictedOptions : SelectOptions where
  only := ["a", " b ", ""]
  onlyFlags := [.lead, .trail]

/-- A command line whose list of names holds blanks only. -/
def blankLine : List String := ["plan", "p.txt", "--only", " ,"]

theorem restricted_of_parse_lists :
    (parse restrictedLine =
        .ok { verbosity := 1, job := .install ⟨"p.txt"⟩ restrictedOptions false none } ∧
      restrictedOptions.criteria.judge { name := "b", flags := [.trail] } {} "h" = .install false ∧
      Opt.only.namesIn restrictedLine = ["a", "b", ""] ∧ "b" ∈ Opt.only.namesIn restrictedLine ∧
      ∃ flag ∈ [Flag.trail], flag ∈ Opt.onlyFlags.flagsIn restrictedLine) ∧
    parse blankLine = .ok { job := .plan ⟨"p.txt"⟩ { only := [" ", ""] } false } ∧
      ({ only := [" ", ""] } : SelectOptions).criteria = ({} : SelectOptions).criteria := by
  have hparse : parse restrictedLine =
      .ok { verbosity := 1, job := .install ⟨"p.txt"⟩ restrictedOptions false none } := by
    decide +kernel
  have hjudge : restrictedOptions.criteria.judge { name := "b", flags := [.trail] } {} "h" =
      .install false := by decide +kernel
  have hblank : parse blankLine = .ok { job := .plan ⟨"p.txt"⟩ { only := [" ", ""] } false } := by
    decide +kernel
  obtain ⟨hnames, hflags⟩ := (restricted_of_parse hparse rfl).1 _ _ _ hjudge
  exact ⟨⟨hparse, hjudge, by decide +kernel, hnames ⟨"a", by decide +kernel, by decide⟩,
    hflags (by decide +kernel)⟩, hblank, (restricted_of_parse hblank rfl).2 (by decide +kernel)⟩

/-- With an empty list of names a unit is selected, though no item is its name. -/
theorem empty_only_selects :
    parse ["plan", "p.txt", "--only", ""] =
      .ok { job := .plan ⟨"p.txt"⟩ { only := [""] } false } ∧
    Opt.only.valuesIn ["plan", "p.txt", "--only", ""] = [""] ∧
    ({ only := [""] } : SelectOptions).criteria.judge { name := "a" } {} "h" = .install false ∧
    "a" ∉ Opt.only.namesIn ["plan", "p.txt", "--only", ""] := by
  decide +kernel

end SelectOptions

end Provision
