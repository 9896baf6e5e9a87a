import Mathlib.Logic.Basic
import Provision.Decision

/-!
# What a decision says

A unit is installed if something forces it or if none of the other rules turns it away. The order of
the rules decides only which cause a skipped unit is given.
-/

namespace Provision

namespace Criteria

variable {criteria : Criteria} {unit : Installable} {snapshot : Snapshot} {hostname : String}

/-- The unit is installed whatever the other rules say. -/
def Forces (criteria : Criteria) (unit : Installable) : Prop :=
  criteria.forceAll = true ∨ unit.has .force = true

/-- No rule turns the unit away. -/
structure Passes (criteria : Criteria) (unit : Installable) (snapshot : Snapshot)
    (hostname : String) : Prop where
  new : unit.package ∉ snapshot.packages
  wanted : Flag.skip ∉ unit.flags
  skipNames : unit.name ∉ criteria.skipNames
  skipFlags : ∀ flag ∈ unit.flags, flag ∉ criteria.skipFlags
  onlyNames : criteria.onlyNames = [] ∨ unit.name ∈ criteria.onlyNames
  onlyFlags : criteria.onlyFlags = [] ∨ ∃ flag ∈ unit.flags, flag ∈ criteria.onlyFlags
  host : Host.accepts (unit.hosts.map String.toList) hostname.toList = true

theorem forces_iff : criteria.Forces unit ↔ (criteria.forceAll || unit.has .force) = true := by
  rw [Forces, Bool.or_eq_true]

theorem judge_of_forces (h : criteria.Forces unit) :
    criteria.judge unit snapshot hostname = .install true := by
  rw [judge, if_pos (forces_iff.mp h)]

theorem judge_of_passes (hforces : ¬ criteria.Forces unit)
    (h : criteria.Passes unit snapshot hostname) :
    criteria.judge unit snapshot hostname = .install false := by
  have hfind : unit.flags.find? criteria.skipFlags.contains = none := by
    simpa [List.find?_eq_none] using h.skipFlags
  have hnames :
      (!criteria.onlyNames.isEmpty && !criteria.onlyNames.contains unit.name) = false := by
    rcases h.onlyNames with hempty | hmem
    · simp [hempty]
    · simp [hmem]
  have hflags : (!criteria.onlyFlags.isEmpty &&
      !unit.flags.any criteria.onlyFlags.contains) = false := by
    rcases h.onlyFlags with hempty | ⟨flag, hflag, hmem⟩
    · simp [hempty]
    · have hany : unit.flags.any criteria.onlyFlags.contains = true :=
        List.any_eq_true.mpr ⟨flag, hflag, by simpa using hmem⟩
      simp [hany]
  unfold judge
  rw [if_neg (fun hforced => hforces (forces_iff.mpr hforced)),
    if_neg (by simpa [Snapshot.has] using h.new),
    if_neg (by simpa [Installable.has] using h.wanted),
    if_neg (by simpa using h.skipNames), hfind]
  simp only [hnames, hflags, h.host, Bool.not_true, Bool.false_eq_true, if_false]

theorem passes_of_judge {forced : Bool} (hforces : ¬ criteria.Forces unit)
    (h : criteria.judge unit snapshot hostname = .install forced) :
    forced = false ∧ criteria.Passes unit snapshot hostname := by
  unfold judge at h
  rw [if_neg fun hforced => hforces (forces_iff.mpr hforced)] at h
  split at h
  · cases h
  next hnew =>
  split at h
  · cases h
  next hwanted =>
  split at h
  · cases h
  next hskipNames =>
  split at h
  · cases h
  next hfind =>
  split at h
  · cases h
  next hnames =>
  split at h
  · cases h
  next hflags =>
  split at h
  · cases h
  next hhost =>
  refine ⟨(Decision.install.inj h).symm, ?_⟩
  constructor
  case new => simpa [Snapshot.has] using hnew
  case wanted => simpa [Installable.has] using hwanted
  case skipNames => simpa using hskipNames
  case skipFlags => simpa [List.find?_eq_none] using hfind
  case onlyNames => simpa [or_iff_not_imp_left] using hnames
  case onlyFlags => simpa [or_iff_not_imp_left] using hflags
  case host => simpa using hhost

theorem judge_eq_selected_iff : criteria.judge unit snapshot hostname = .install false ↔
    ¬ criteria.Forces unit ∧ criteria.Passes unit snapshot hostname := by
  constructor
  · intro h
    have hforces : ¬ criteria.Forces unit := by
      intro hforces
      rw [judge_of_forces hforces] at h
      cases h
    exact ⟨hforces, (passes_of_judge hforces h).2⟩
  · rintro ⟨hforces, hpasses⟩
    exact judge_of_passes hforces hpasses

theorem isSkip_judge_eq_false_iff : (criteria.judge unit snapshot hostname).isSkip = false ↔
    criteria.Forces unit ∨ criteria.Passes unit snapshot hostname := by
  by_cases hforces : criteria.Forces unit
  · simp [judge_of_forces hforces, hforces, Decision.isSkip]
  · constructor
    · intro h
      cases hdecision : criteria.judge unit snapshot hostname with
      | skip cause => simp [hdecision, Decision.isSkip] at h
      | install forced => exact .inr (passes_of_judge hforces hdecision).2
    · rintro (h | h)
      · exact absurd h hforces
      · rw [judge_of_passes hforces h]
        rfl

end Criteria

end Provision
