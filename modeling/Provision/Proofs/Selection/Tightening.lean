import Mathlib.Data.List.Forall2
import Provision.Plan
import Provision.Proofs.Selection.Judgement

/-!
# Tighter selections

Who skips more, restricts to less, forces no more or asks on a host with more packages installs
nothing that was not installed before. An empty restriction restricts to nothing, so it is the
widest one.
-/

namespace Provision

namespace Criteria

/-- A restriction that admits no more than another. -/
def Narrows {α : Type} (loose tight : List α) : Prop :=
  loose = [] ∧ tight = [] ∨ tight ≠ [] ∧ (loose = [] ∨ tight ⊆ loose)

/-- Criteria and a snapshot that leave no more to install than others. -/
structure Tightens (loose tight : Criteria) (before after : Snapshot) : Prop where
  forceAll : tight.forceAll = true → loose.forceAll = true
  skipNames : loose.skipNames ⊆ tight.skipNames
  skipFlags : loose.skipFlags ⊆ tight.skipFlags
  onlyNames : Narrows loose.onlyNames tight.onlyNames
  onlyFlags : Narrows loose.onlyFlags tight.onlyFlags
  installed : before.packages ⊆ after.packages

variable {loose tight : Criteria} {before after : Snapshot} {unit : Installable} {hostname : String}

theorem Narrows.eq_nil_or_subset {α : Type} {loose tight : List α} (h : Narrows loose tight) :
    loose = [] ∨ tight ≠ [] ∧ tight ⊆ loose := by
  rcases h with ⟨hloose, -⟩ | ⟨htight, hloose | hsubset⟩
  · exact .inl hloose
  · exact .inl hloose
  · exact .inr ⟨htight, hsubset⟩

theorem Forces.of_tightens (h : Tightens loose tight before after) (hforces : tight.Forces unit) :
    loose.Forces unit :=
  hforces.imp_left h.forceAll

theorem Passes.of_tightens (h : Tightens loose tight before after)
    (hpasses : tight.Passes unit after hostname) : loose.Passes unit before hostname := by
  constructor
  case new => exact fun hmem => hpasses.new (h.installed hmem)
  case wanted => exact hpasses.wanted
  case skipNames => exact fun hmem => hpasses.skipNames (h.skipNames hmem)
  case skipFlags => exact fun flag hflag hmem => hpasses.skipFlags flag hflag (h.skipFlags hmem)
  case onlyNames =>
    refine h.onlyNames.eq_nil_or_subset.imp_right fun ⟨hne, hsubset⟩ => ?_
    exact hsubset (hpasses.onlyNames.resolve_left hne)
  case onlyFlags =>
    refine h.onlyFlags.eq_nil_or_subset.imp_right fun ⟨hne, hsubset⟩ => ?_
    obtain ⟨flag, hflag, hmem⟩ := hpasses.onlyFlags.resolve_left hne
    exact ⟨flag, hflag, hsubset hmem⟩
  case host => exact hpasses.host

theorem isSkip_of_tightens (h : Tightens loose tight before after)
    (hinstall : (tight.judge unit after hostname).isSkip = false) :
    (loose.judge unit before hostname).isSkip = false := by
  rw [isSkip_judge_eq_false_iff] at hinstall ⊢
  rcases hinstall with hforces | hpasses
  · exact .inl (hforces.of_tightens h)
  · exact .inr (hpasses.of_tightens h)

end Criteria

open Criteria

/-- A row of a plan under looser criteria: the same unit, installed if the other row installs it. -/
structure PlanRow.Loosens (tight loose : PlanRow) : Prop where
  line : loose.line = tight.line
  name : loose.name = tight.name
  bucket : loose.bucket = tight.bucket
  install : tight.decision.isSkip = false → loose.decision.isSkip = false

/-- What a tighter selection installs, row by row, the looser one installs as well. -/
theorem plan_of_tightens {loose tight : Criteria} {before after : Snapshot}
    (h : Tightens loose tight before after) (catalog : Catalog) (hostname : String) :
    List.Forall₂ PlanRow.Loosens (plan catalog tight after hostname)
      (plan catalog loose before hostname) := by
  unfold plan
  rw [List.forall₂_map_left_iff, List.forall₂_map_right_iff, List.forall₂_same]
  intro entry _
  exact ⟨rfl, rfl, rfl, isSkip_of_tightens h⟩

/-- Units that a host, a flag, a name, a restriction or nothing keeps from being installed. -/
def mixedCatalog : Catalog :=
  ⟨[⟨1, { name := "a", flags := [.trail] }⟩, ⟨2, { name := "b", flags := [.lead, .virtual] }⟩,
    ⟨3, { name := "c", flags := [.lead], hosts := ["!n1"] }⟩,
    ⟨4, { name := "d", flags := [.force], hosts := ["n2"] }⟩, ⟨5, { name := "e" }⟩]⟩

def looseCriteria : Criteria where
  skipNames := ["e"]
  onlyFlags := [.lead, .trail]

def tightCriteria : Criteria where
  skipNames := ["b", "e"]
  skipFlags := [.virtual]
  onlyNames := ["a", "b", "d"]
  onlyFlags := [.trail]

theorem plan_of_tightens_mixed :
    Tightens looseCriteria tightCriteria ⟨["x"]⟩ ⟨["x", "d"]⟩ ∧
    (plan mixedCatalog looseCriteria ⟨["x"]⟩ "n1").map (fun row => (row.name, row.decision)) =
      [("b", .install false), ("c", .skip .hostname), ("d", .install true),
        ("e", .skip .skippedByName), ("a", .install false)] ∧
    (plan mixedCatalog tightCriteria ⟨["x", "d"]⟩ "n1").map (fun row => (row.name, row.decision)) =
      [("b", .skip .skippedByName), ("c", .skip .notInOnlyNames), ("d", .install true),
        ("e", .skip .skippedByName), ("a", .install false)] ∧
    List.Forall₂ PlanRow.Loosens (plan mixedCatalog tightCriteria ⟨["x", "d"]⟩ "n1")
      (plan mixedCatalog looseCriteria ⟨["x"]⟩ "n1") := by
  have h : Tightens looseCriteria tightCriteria ⟨["x"]⟩ ⟨["x", "d"]⟩ :=
    ⟨by decide, by decide, by decide, .inr ⟨by decide, .inl rfl⟩,
      .inr ⟨by decide, .inr (by decide)⟩, by decide⟩
  exact ⟨h, by decide +kernel, by decide +kernel, plan_of_tightens h mixedCatalog "n1"⟩

end Provision
