import Mathlib.Data.List.Induction
import Mathlib.Data.List.Nodup
import Provision.Proofs.Run.Account

/-!
# Names and buckets of a catalog

Units are appended to a catalog one by one. However many are refused, the names in it stay apart,
and if no unit asks for two buckets, the three views of the catalog part it by the buckets that the
units name. The order of a run is then the order of the catalog, sorted by bucket and stable.
-/

namespace Provision

def Bucket.rank : Bucket → Nat
  | lead => 0
  | main => 1
  | trail => 2

namespace Catalog

open Document (Diagnostic)

/-- The catalog after an append, and the fault if it is refused. -/
def attempt (catalog : Catalog) (line : Nat) (unit : Installable) : Catalog × Option Diagnostic :=
  match catalog.append line unit with
  | .ok longer => (longer, none)
  | .error fault => (catalog, some fault)

/-- The catalog after some appends, each of a unit with its line. -/
def ofAppends (appends : List (Nat × Installable)) : Catalog :=
  appends.foldl (fun catalog (line, unit) => (catalog.attempt line unit).1) {}

def ofBucket (catalog : Catalog) (bucket : Bucket) : List Entry :=
  catalog.entries.filter fun entry => entry.unit.bucket = bucket

/-! ## Appends -/

section Append

variable {catalog : Catalog} {line : Nat} {unit : Installable}

theorem attempt_of_free (h : unit.name ∉ catalog.names) :
    catalog.attempt line unit = (⟨catalog.entries ++ [⟨line, unit⟩]⟩, none) := by
  unfold attempt append
  rw [entry?_eq_none_iff.mpr h]

theorem attempt_of_taken {holder : Entry} (hdistinct : catalog.names.Nodup)
    (hmem : holder ∈ catalog.entries) (hname : holder.unit.name = unit.name) :
    catalog.attempt line unit =
      (catalog, some ⟨line, .duplicateUnit unit.name holder.line⟩) := by
  have htaken : catalog.entry? unit.name ≠ none := by
    rw [ne_eq, entry?_eq_none_iff, ← hname, not_not]
    exact List.mem_map_of_mem hmem
  obtain ⟨first, hfirst⟩ := Option.ne_none_iff_exists'.mp htaken
  obtain ⟨hfirstMem, hfirstName⟩ := entry?_eq_some hfirst
  have hsame : first = holder :=
    List.inj_on_of_nodup_map hdistinct hfirstMem hmem (hfirstName.trans hname.symm)
  unfold attempt append
  rw [hfirst, hsame]

/-- The names are apart, and no unit asks for two buckets. -/
structure Sound (catalog : Catalog) : Prop where
  distinct : catalog.names.Nodup
  oneBucket : ∀ entry ∈ catalog.entries, entry.unit.OneBucket

theorem Sound.attempt (h : catalog.Sound) (hunit : unit.OneBucket) :
    (catalog.attempt line unit).1.Sound := by
  by_cases htaken : unit.name ∈ catalog.names
  · obtain ⟨holder, hmem, hname⟩ := List.mem_map.mp htaken
    rw [attempt_of_taken h.distinct hmem hname]
    exact h
  · rw [attempt_of_free htaken]
    constructor
    · rw [names_snoc, List.nodup_append_comm]
      exact List.nodup_cons.mpr ⟨htaken, h.distinct⟩
    · intro entry hentry
      rcases List.mem_append.mp hentry with hentry | hentry
      · exact h.oneBucket entry hentry
      · rw [List.mem_singleton.mp hentry]
        exact hunit

theorem sound_ofAppends {appends : List (Nat × Installable)}
    (h : ∀ append ∈ appends, append.2.OneBucket) : (ofAppends appends).Sound := by
  unfold ofAppends
  induction appends using List.reverseRecOn with
  | nil => exact ⟨List.nodup_nil, by simp⟩
  | append_singleton earlier last ih =>
    rw [List.foldl_append]
    apply Sound.attempt
    · exact ih fun append hmem => h append (List.mem_append_left _ hmem)
    · exact h last (by simp)

end Append

/-! ## Buckets -/

section Views

variable {catalog : Catalog}

theorem inBucket_eq {unit : Installable} (h : unit.OneBucket) (bucket : Bucket) :
    inBucket unit bucket = decide (unit.bucket = bucket) := by
  rw [Bool.eq_iff_iff, decide_eq_true_iff]
  exact inBucket_iff h bucket

theorem view_eq (h : ∀ entry ∈ catalog.entries, entry.unit.OneBucket) (bucket : Bucket) :
    catalog.view bucket = catalog.ofBucket bucket := by
  unfold view ofBucket
  apply List.filter_congr
  intro entry hentry
  exact inBucket_eq (h entry hentry) bucket

theorem updateBucket_eq (h : ∀ entry ∈ catalog.entries, entry.unit.OneBucket) (bucket : Bucket)
    (f : Installable → Installable) :
    catalog.updateBucket bucket f = ⟨catalog.entries.map fun entry =>
      if entry.unit.bucket = bucket then { entry with unit := f entry.unit } else entry⟩ := by
  unfold updateBucket
  congr 1
  apply List.map_congr_left
  intro entry hentry
  simp only [inBucket_eq (h entry hentry), decide_eq_true_eq]

theorem units_eq (h : ∀ entry ∈ catalog.entries, entry.unit.OneBucket) (bucket : Bucket) :
    RunState.units bucket catalog.entries = (catalog.ofBucket bucket).map Entry.unit := by
  rw [← view_eq h]
  rfl

theorem runOrder_eq (h : ∀ entry ∈ catalog.entries, entry.unit.OneBucket) :
    catalog.runOrder = Bucket.all.flatMap catalog.ofBucket := by
  unfold runOrder
  apply List.flatMap_congr
  intro bucket _
  exact view_eq h bucket

theorem bucket_of_mem_ofBucket {bucket : Bucket} {entry : Entry}
    (h : entry ∈ catalog.ofBucket bucket) : entry.unit.bucket = bucket :=
  of_decide_eq_true (List.mem_filter.mp h).2

theorem runOrder_sorted (h : ∀ entry ∈ catalog.entries, entry.unit.OneBucket) :
    catalog.runOrder.Pairwise fun a b => a.unit.bucket.rank ≤ b.unit.bucket.rank := by
  rw [runOrder_eq h, List.pairwise_flatMap]
  constructor
  · intro bucket _
    apply List.pairwise_of_forall_mem_list
    intro a ha b hb
    exact Nat.le_of_eq (by rw [bucket_of_mem_ofBucket ha, bucket_of_mem_ofBucket hb])
  · have hall : Bucket.all.Pairwise fun a b => a.rank ≤ b.rank := by decide
    apply hall.imp
    intro front back hle a ha b hb
    rwa [bucket_of_mem_ofBucket ha, bucket_of_mem_ofBucket hb]

theorem runOrder_stable (h : ∀ entry ∈ catalog.entries, entry.unit.OneBucket) (bucket : Bucket) :
    (catalog.runOrder.filter fun entry => entry.unit.bucket = bucket) =
      catalog.ofBucket bucket := by
  have hother : ∀ other : Bucket, ((catalog.ofBucket other).filter fun entry =>
      entry.unit.bucket = bucket) = if other = bucket then catalog.ofBucket bucket else [] := by
    intro other
    split
    · next hsame =>
      rw [hsame, List.filter_eq_self]
      intro entry hentry
      exact decide_eq_true (bucket_of_mem_ofBucket hentry)
    · next hne =>
      rw [List.filter_eq_nil_iff]
      intro entry hentry
      rw [bucket_of_mem_ofBucket hentry, decide_eq_true_iff]
      exact hne
  rw [runOrder_eq h, List.filter_flatMap]
  simp only [hother]
  cases bucket <;> simp [Bucket.all]

end Views

/-! ## The catalog as a whole -/

structure Orderly (catalog : Catalog) : Prop where
  distinct : catalog.names.Nodup
  taken : ∀ line unit, ∀ holder ∈ catalog.entries, holder.unit.name = unit.name →
    catalog.attempt line unit = (catalog, some ⟨line, .duplicateUnit unit.name holder.line⟩)
  free : ∀ line unit, unit.name ∉ catalog.names →
    catalog.attempt line unit = (⟨catalog.entries ++ [⟨line, unit⟩]⟩, none)
  view : ∀ bucket, catalog.view bucket = catalog.ofBucket bucket
  update : ∀ bucket f, catalog.updateBucket bucket f = ⟨catalog.entries.map fun entry =>
    if entry.unit.bucket = bucket then { entry with unit := f entry.unit } else entry⟩
  /-- A run of a bucket is a tour of the same units. -/
  run : ∀ setting strict bucket report session,
    (RunState.runEntries setting strict bucket catalog.entries report session).2 =
      let t := tour setting strict ((catalog.ofBucket bucket).map Entry.unit) session
      (⟨report.units ++ t.results setting⟩, t.session, t.error?)
  order : catalog.runOrder.Perm catalog.entries
  sorted : catalog.runOrder.Pairwise fun a b => a.unit.bucket.rank ≤ b.unit.bucket.rank
  stable : ∀ bucket,
    (catalog.runOrder.filter fun entry => entry.unit.bucket = bucket) = catalog.ofBucket bucket

/-- A catalog that is made by appends is orderly, whichever of them are refused. -/
theorem orderly_ofAppends {appends : List (Nat × Installable)}
    (h : ∀ append ∈ appends, append.2.OneBucket) : (ofAppends appends).Orderly := by
  obtain ⟨hdistinct, hone⟩ := sound_ofAppends h
  refine ⟨hdistinct, ?_, ?_, view_eq hone, updateBucket_eq hone, ?_, runOrder_perm hone,
    runOrder_sorted hone, runOrder_stable hone⟩
  · intro line unit holder hmem hname
    exact attempt_of_taken hdistinct hmem hname
  · intro line unit hname
    exact attempt_of_free hname
  · intro setting strict bucket report session
    rw [RunState.runEntries_snd, units_eq hone]

/-- Appends to all three buckets, one of which is refused. -/
def mixedAppends : List (Nat × Installable) :=
  [(1, { name := "a", flags := [.trail] }), (2, { name := "b" }),
    (4, { name := "c", flags := [.lead, .virtual] }), (5, { name := "b", flags := [.lead] }),
    (7, { name := "d" })]

theorem orderly_mixedAppends : (∀ append ∈ mixedAppends, append.2.OneBucket) ∧
    (ofAppends mixedAppends).Orderly ∧
    (ofAppends mixedAppends).runOrder.map Entry.line = [4, 2, 7, 1] := by
  have hone : ∀ append ∈ mixedAppends, append.2.OneBucket := by
    unfold Installable.OneBucket
    decide
  exact ⟨hone, orderly_ofAppends hone, by decide⟩

end Catalog

end Provision
