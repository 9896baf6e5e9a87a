import Provision.Proofs.Document.Entries
import Provision.Proofs.Text.Trimmed

/-!
# Proper units

What the run relies on in a unit that was read from a document, whatever directives were given in
whatever order: its name can stand in a file name, what excludes each other is not given together,
and every text that it holds is there to be used, with no blanks around it.
-/

namespace Provision

open Text

namespace Installable

/-- The texts that a unit was given besides its name. -/
def texts (unit : Installable) : List String :=
  unit.hosts ++ unit.repositories ++ unit.sources.map SourceFile.content ++
    unit.preScript?.toList ++ unit.postScript?.toList ++ unit.url?.toList ++ unit.package?.toList

structure Proper (unit : Installable) : Prop where
  name : Trimmed unit.name.toList
  no_colon : ':' ∉ unit.name.toList
  no_slash : '/' ∉ unit.name.toList
  one_origin : unit.repositories = [] ∨ unit.sources = []
  repositories : unit.repositories.Nodup
  force_or_skip : unit.has .force = false ∨ unit.has .skip = false
  lead_or_trail : unit.has .lead = false ∨ unit.has .trail = false
  delivery : unit.delivery = .downloadedArchive ↔ unit.url?.isSome
  texts : ∀ text ∈ unit.texts, Trimmed text.toList
  no_archive : unit.archive? = none
  no_refresh : unit.refreshDue = false

end Installable

structure Catalog.Proper (catalog : Catalog) : Prop where
  units : ∀ entry ∈ catalog.entries, entry.unit.Proper
  distinct : catalog.names.Nodup
  lines : (catalog.entries.map Entry.line).Pairwise (· < ·)

namespace Document

theorem trimmed_of_mem_items {value item : List Char} (h : item ∈ items value) : Trimmed item := by
  obtain ⟨hmem, hne⟩ := List.mem_filter.mp h
  obtain ⟨piece, -, rfl⟩ := List.mem_map.mp hmem
  exact trimmed_trim (by simpa using hne)

theorem trimmed_of_isDirective {line : Line} {key : Key} {value : List Char}
    (h : IsDirective line key value) : Trimmed value := by
  obtain ⟨_, after, -, -, -, rfl, hne⟩ := h
  exact trimmed_trim hne

/-! ## One directive -/

section Apply

variable {sourcesDir : Path} {unit next : Installable} {value : List Char}

theorem mem_hosts_of_applyDirective (h : applyDirective sourcesDir unit .hosts value = .ok next) :
    ∀ host ∈ next.hosts, host ∈ unit.hosts ∨ ∃ item ∈ items value, host = String.ofList (lower item) := by
  intro host hhost
  have hset := (applyHosts_inserts h).2.2 host.toList
  rw [String.ofList_toList] at hset
  refine (hset.mp hhost).imp_right fun hmem => ?_
  obtain ⟨item, hitem, hlower⟩ := List.mem_map.mp hmem
  exact ⟨item, hitem, by rw [hlower, String.ofList_toList]⟩

/-- The content of a source is what its value ends in, so it has no blanks around it either. -/
theorem trimmed_content {entry : SourceFile} (hvalue : Trimmed value)
    (h : sourceEntry? sourcesDir value = some entry) : Trimmed entry.content.toList := by
  obtain ⟨word, after, file, hcut, -, hne, rfl⟩ := sourceEntry?_eq_some h
  obtain ⟨c, -, rfl, -⟩ := cut?_eq_some hcut
  rw [String.toList_ofList]
  exact trimmed_trimStart hvalue ⟨word ++ [c], by simp⟩ hne

theorem trimmed_of_new_text {key : Key} (hvalue : Trimmed value)
    (h : applyDirective sourcesDir unit key value = .ok next) :
    ∀ text ∈ next.texts, text ∈ unit.texts ∨ Trimmed text.toList := by
  intro text htext
  have hgiven : Trimmed (String.ofList value).toList := by rwa [String.toList_ofList]
  cases key with
  | hosts =>
    have hhosts : text ∈ next.hosts → text ∈ unit.hosts ∨ Trimmed text.toList := by
      refine fun hhost => (mem_hosts_of_applyDirective h text hhost).imp_right ?_
      rintro ⟨item, hitem, rfl⟩
      rw [String.toList_ofList]
      exact trimmed_lower (trimmed_of_mem_items hitem)
    rw [applyDirective_hosts h] at htext
    simp only [Installable.texts, List.mem_append] at htext ⊢
    tauto
  | flags =>
    rw [(applyDirective_flags h).1] at htext
    exact .inl htext
  | deb | pre | post | package =>
    obtain ⟨hnone, rfl⟩ := setOnce_eq_ok h
    by_cases hnew : text = String.ofList value
    · exact .inr (hnew ▸ hgiven)
    · left
      simp_all [Installable.texts]
  | repo =>
    obtain ⟨-, ⟨-, rfl⟩ | rfl⟩ := applyDirective_repo h
    · exact .inl htext
    · by_cases hnew : text = String.ofList value
      · exact .inr (hnew ▸ hgiven)
      · left
        simp_all [Installable.texts]
  | source =>
    obtain ⟨-, entry, hentry, rfl⟩ := applyDirective_source h
    by_cases hnew : text = entry.content
    · exact .inr (hnew ▸ trimmed_content hvalue hentry)
    · left
      simp_all [Installable.texts]

theorem nodup_of_applyDirective (hnodup : unit.repositories.Nodup)
    (h : applyDirective sourcesDir unit .repo value = .ok next) : next.repositories.Nodup := by
  simp only [applyDirective] at h
  split at h
  · cases h
  · split at h
    · obtain rfl := Except.ok.inj h
      exact hnodup
    · next hnew =>
      obtain rfl := Except.ok.inj h
      have hnew : String.ofList value ∉ unit.repositories := by simpa using hnew
      exact hnodup.append (by simp) (by simpa using hnew)

theorem proper_applyDirective {key : Key} (hunit : unit.Proper) (hvalue : Trimmed value)
    (h : applyDirective sourcesDir unit key value = .ok next) : next.Proper := by
  have htexts : ∀ text ∈ next.texts, Trimmed text.toList := fun text htext =>
    (trimmed_of_new_text hvalue h text htext).elim (hunit.texts text) id
  cases key with
  | hosts =>
    rw [applyDirective_hosts h] at htexts ⊢
    exact { hunit with texts := htexts }
  | flags =>
    obtain ⟨hnext, hexclusive⟩ := applyDirective_flags h
    have hforce := hexclusive (.force, .skip) (by decide)
    have hlead := hexclusive (.lead, .trail) (by decide)
    rw [hnext] at htexts hforce hlead ⊢
    exact { hunit with texts := htexts, force_or_skip := hforce, lead_or_trail := hlead }
  | deb =>
    obtain ⟨-, rfl⟩ := setOnce_eq_ok h
    exact { hunit with texts := htexts, delivery := by simp }
  | pre | post | package =>
    obtain ⟨-, rfl⟩ := setOnce_eq_ok h
    exact { hunit with texts := htexts }
  | repo =>
    have hnodup := nodup_of_applyDirective hunit.repositories h
    obtain ⟨hnil, ⟨-, rfl⟩ | rfl⟩ := applyDirective_repo h
    · exact hunit
    · exact { hunit with texts := htexts, one_origin := .inr hnil, repositories := hnodup }
  | source =>
    obtain ⟨hnil, entry, -, rfl⟩ := applyDirective_source h
    exact { hunit with texts := htexts, one_origin := .inl hnil }

/-! ## All directives -/

theorem proper_applyAll {directives : Directives} (hunit : unit.Proper)
    (hvalues : ∀ pair ∈ directives, Trimmed pair.2)
    (h : applyAll sourcesDir unit directives = .ok next) : next.Proper := by
  induction directives using List.reverseRecOn generalizing next with
  | nil =>
    obtain rfl := Except.ok.inj h
    exact hunit
  | append_singleton earlier last ih =>
    obtain ⟨mid, hmid, hlast⟩ := applyAll_snoc_eq_ok_iff.mp h
    have hproper := ih (fun pair hpair => hvalues pair (List.mem_append_left _ hpair)) hmid
    exact proper_applyDirective hproper (hvalues last (by simp)) hlast

end Apply

theorem proper_fresh {name : List Char} (h : IsUnitName name) (htrim : Trimmed name) :
    Installable.Proper { name := String.ofList name } where
  name := by rwa [String.toList_ofList]
  no_colon := by simpa using h.no_colon
  no_slash := by simpa using h.no_slash
  one_origin := .inl rfl
  repositories := List.nodup_nil
  force_or_skip := .inl rfl
  lead_or_trail := .inl rfl
  delivery := by simp
  texts := by simp [Installable.texts]
  no_archive := rfl
  no_refresh := rfl

theorem Section.Good.trimmed_name {part : Section} (h : part.Good) : Trimmed part.name := by
  have hne := h.name.ne_nil
  unfold Section.name Reading.declared at hne ⊢
  split at hne <;> simp_all [trimmed_trim]

theorem Section.Makes.proper {sourcesDir : Path} {part : Section} {entry : Entry}
    (h : part.Makes sourcesDir entry) : entry.unit.Proper := by
  refine proper_applyAll (proper_fresh h.good.name h.good.trimmed_name) ?_ h.unit
  intro pair hpair
  obtain ⟨line, -, hline⟩ := List.mem_filterMap.mp hpair
  exact trimmed_of_isDirective (directive?_eq_some_iff.mp hline)

/-! ## Whole documents -/

/-- Every document that is accepted declares proper units, with distinct names and from the top to
the bottom. -/
theorem proper_of_parse {sourcesDir : Path} {text : List Char} {catalog : Catalog}
    (h : parse sourcesDir text = .ok catalog) : catalog.Proper where
  units := by
    intro entry hentry
    obtain ⟨part, -, hmakes⟩ := exists_section_of_mem (entries_of_parse h) hentry
    exact hmakes.proper
  distinct := (wellFormed_of_parse h).distinct
  lines := lines_increase h

/-- A document with blanks of all kinds around its texts, and a source of two lines. -/
def spacedText : List Char :=
  "a :\n  hosts: WEB-*, ΑΣ\u00a0 # two\n  source: d/x.list deb \\\n  http://x \n\nb\n".toList

def spacedCatalog : Catalog :=
  ⟨[⟨1, { name := "a", hosts := ["web-*", "ας"]
          sources := [⟨⟨"s/x.list"⟩, "deb \n  http://x"⟩] }⟩,
    ⟨6, { name := "b" }⟩]⟩

theorem proper_of_spaced_parse :
    parse ⟨"s"⟩ spacedText = .ok spacedCatalog ∧ spacedCatalog.Proper := by
  have h : parse ⟨"s"⟩ spacedText = .ok spacedCatalog := by decide +kernel
  exact ⟨h, proper_of_parse h⟩

end Document

end Provision
