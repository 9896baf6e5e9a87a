import Mathlib.Data.List.Forall2
import Provision.Proofs.Run.Visits

/-!
# A run as a tour

A run goes through stages, buckets and entries, and changes the catalog as it goes. If every unit
is in one bucket it is nothing but a tour: it visits the units in their order, each as it was when
the run began, until an error ends it.
-/

namespace Provision

/-- A unit whose turn it is, and the session then. -/
structure Turn where
  unit : Installable
  session : Session

def Turn.visit (setting : Setting) (turn : Turn) : Visit := setting.visit turn.session turn.unit

def Turn.result? (setting : Setting) (turn : Turn) : Option UnitResult :=
  (turn.visit setting).result.toOption

structure Tour where
  turns : List Turn
  session : Session
  error? : Option RunError := none

namespace Tour

def results (setting : Setting) (t : Tour) : List UnitResult :=
  t.turns.filterMap (Turn.result? setting)

def cons (turn : Turn) (t : Tour) : Tour := { t with turns := turn :: t.turns }

/-- Goes on with the next tour, unless an error has ended this one. -/
def andThen (t : Tour) (next : Session → Tour) : Tour :=
  match t.error? with
  | some _ => t
  | none => { next t.session with turns := t.turns ++ (next t.session).turns }

end Tour

/-- Visits the units in order until an error ends the tour. -/
def tour (setting : Setting) (strict : Bool) : List Installable → Session → Tour
  | [], session => ⟨[], session, none⟩
  | unit :: rest, session =>
    let visit := setting.visit session unit
    match visit.result with
    | .error error => ⟨[⟨unit, session⟩], visit.session, some error⟩
    | .ok result =>
      let reported := visit.session.note (.reported result)
      match RunState.abort? strict result with
      | some error => ⟨[⟨unit, session⟩], reported, some error⟩
      | none => (tour setting strict rest reported).cons ⟨unit, session⟩

section

variable {setting : Setting} {strict : Bool} {session : Session}

theorem Turn.result?_of_error {unit : Installable} {error : RunError}
    (h : (setting.visit session unit).result = .error error) :
    Turn.result? setting ⟨unit, session⟩ = none := by
  rw [result?, visit, h]
  rfl

theorem Turn.result?_of_ok {unit : Installable} {result : UnitResult}
    (h : (setting.visit session unit).result = .ok result) :
    Turn.result? setting ⟨unit, session⟩ = some result := by
  rw [result?, visit, h]
  rfl

/-! ## Tours -/

theorem tour_append (units more : List Installable) :
    tour setting strict (units ++ more) session =
      (tour setting strict units session).andThen (tour setting strict more) := by
  induction units generalizing session with
  | nil => rfl
  | cons unit rest ih =>
    simp only [List.cons_append, tour]
    split
    · rfl
    · split
      · rfl
      · rw [ih]
        generalize tour setting strict rest _ = t
        obtain ⟨turns, session, error?⟩ := t
        cases error? <;> rfl

variable (setting strict session) in
theorem prefix_turns_tour (units : List Installable) :
    (tour setting strict units session).turns.map Turn.unit <+: units := by
  induction units generalizing session with
  | nil => exact List.nil_prefix
  | cons unit rest ih =>
    have hfirst : [unit] <+: unit :: rest := ⟨rest, rfl⟩
    simp only [tour]
    split
    · exact hfirst
    · split
      · exact hfirst
      · exact (List.prefix_cons_inj unit).mpr (ih _)

theorem getElem?_of_turn {units : List Installable} {i : Nat} {turn : Turn}
    (h : (tour setting strict units session).turns[i]? = some turn) :
    units[i]? = some turn.unit := by
  obtain ⟨rest, hrest⟩ := prefix_turns_tour setting strict session units
  have hlt : i < ((tour setting strict units session).turns.map Turn.unit).length := by
    simpa using (List.getElem?_eq_some_iff.mp h).1
  rw [← hrest, List.getElem?_append_left hlt, List.getElem?_map, h]
  rfl

theorem unit_mem_of_mem_turns {units : List Installable} {turn : Turn}
    (h : turn ∈ (tour setting strict units session).turns) : turn.unit ∈ units :=
  (prefix_turns_tour setting strict session units).subset (List.mem_map_of_mem h)

theorem tour_preserves {P : Session → Prop} {units : List Installable}
    (visit : ∀ unit ∈ units, ∀ session, P session → P (setting.visit session unit).session)
    (report : ∀ session result, P session → P (session.note (.reported result)))
    (h : P session) : P (tour setting strict units session).session := by
  induction units generalizing session with
  | nil => exact h
  | cons unit rest ih =>
    have hvisit := visit unit List.mem_cons_self session h
    simp only [tour]
    split
    · exact hvisit
    · split
      · exact report _ _ hvisit
      · exact ih (fun other hother => visit other (List.mem_cons_of_mem unit hother))
          (report _ _ hvisit)

theorem idle_tour_of_interrupted {units : List Installable} (h : session.interrupted = true) :
    Idle session (tour setting strict units session).session := by
  cases units with
  | nil => exact .refl session
  | cons unit rest =>
    simp only [tour, visit_of_interrupted h]
    exact .note session rfl

theorem results_tour (units : List Installable) :
    (tour setting strict units session).session.results =
      session.results ++ (tour setting strict units session).results setting := by
  induction units generalizing session with
  | nil => simp [tour, Tour.results]
  | cons unit rest ih =>
    have hvisit := (visit_kept setting session unit).results
    simp only [tour]
    split
    · next error herror =>
      simpa [Tour.results, Turn.result?_of_error herror] using hvisit
    · next result hresult =>
      have hsome := Turn.result?_of_ok hresult
      split
      · simpa [Tour.results, hsome, Event.result?] using hvisit
      · simp only [Tour.cons, ih]
        simpa [Tour.results, hsome, Event.result?] using hvisit

theorem trace_prefix_tour (units : List Installable) :
    session.trace <+: (tour setting strict units session).session.trace :=
  tour_preserves (P := fun later => session.trace <+: later.trace)
    (fun unit _ later h => h.trans (visit_kept setting later unit).trace)
    (fun _ _ h => h.trans (List.prefix_append _ _)) List.prefix_rfl

theorem visit_prefix_tour (unit : Installable) (rest : List Installable) :
    (setting.visit session unit).session.trace <+:
      (tour setting strict (unit :: rest) session).session.trace := by
  simp only [tour]
  split
  · exact List.prefix_rfl
  · have hreport (result : UnitResult) : (setting.visit session unit).session.trace <+:
        ((setting.visit session unit).session.note (.reported result)).trace :=
      List.prefix_append _ _
    split
    · exact hreport _
    · exact (hreport _).trans (trace_prefix_tour rest)

theorem exists_turn_of_results (units : List Installable) (i : Nat) (result : UnitResult) :
    ((tour setting strict units session).results setting)[i]? = some result →
      ∃ turn, (tour setting strict units session).turns[i]? = some turn ∧
        (turn.visit setting).result = .ok result := by
  revert i
  fun_induction tour setting strict units session with
  | case1 => simp [Tour.results]
  | case2 unit rest session visit error herror =>
    simp [Tour.results, Turn.result?_of_error herror]
  | case3 unit rest session visit own hown reported error habort =>
    intro i h
    simp only [Tour.results, List.filterMap_cons_some (Turn.result?_of_ok hown),
      List.filterMap_nil] at h
    obtain ⟨rfl, rfl⟩ : i = 0 ∧ own = result := by
      simpa [List.getElem?_singleton] using h
    exact ⟨_, rfl, hown⟩
  | case4 unit rest session visit own hown reported hgoes ih =>
    intro i h
    simp only [Tour.results, Tour.cons, List.filterMap_cons_some (Turn.result?_of_ok hown)] at h
    cases i with
    | zero =>
      obtain rfl : own = result := by simpa using h
      exact ⟨_, rfl, hown⟩
    | succ i => exact ih i h

theorem trace_of_turn {units : List Installable} {turn : Turn} {result : UnitResult}
    (h : turn ∈ (tour setting strict units session).turns)
    (hresult : (turn.visit setting).result = .ok result) :
    (turn.visit setting).session.trace ++ [.reported result] <+:
      (tour setting strict units session).session.trace := by
  fun_induction tour setting strict units session with
  | case1 => simp at h
  | case2 unit rest session visit error herror =>
    obtain rfl := List.mem_singleton.mp h
    rw [Turn.visit, herror] at hresult
    cases hresult
  | case3 unit rest session visit own hown reported error habort =>
    obtain rfl := List.mem_singleton.mp h
    rw [Turn.visit, hown] at hresult
    obtain rfl := Except.ok.inj hresult
    exact List.prefix_rfl
  | case4 unit rest session visit own hown reported hgoes ih =>
    rcases List.mem_cons.mp h with rfl | h
    · rw [Turn.visit, hown] at hresult
      obtain rfl := Except.ok.inj hresult
      have hlater : reported.trace <+: (tour setting strict rest reported).session.trace :=
        trace_prefix_tour rest
      exact hlater
    · exact ih h

/-! ## Entries -/

/-- What a tour makes of an entry: what the visit to its unit does, if its turn came. -/
def Entry.Left (setting : Setting) (turns : List Turn) (before after : Entry) : Prop :=
  after = before ∨ ∃ turn ∈ turns, turn.unit = before.unit ∧
    after = { before with unit := (turn.visit setting).unit }

namespace Entry.Left

variable {turns more : List Turn} {a b c : Entry}

theorem declared (h : Left setting turns a b) : b.unit.declared = a.unit.declared := by
  rcases h with rfl | ⟨turn, -, hunit, rfl⟩
  · rfl
  · rw [← hunit]
    exact (visit_kept setting turn.session turn.unit).declared

theorem line (h : Left setting turns a b) : b.line = a.line := by
  rcases h with rfl | ⟨turn, -, -, rfl⟩ <;> rfl

theorem mono (hsub : turns ⊆ more) (h : Left setting turns a b) : Left setting more a b :=
  h.imp_right fun ⟨turn, hmem, hturn⟩ => ⟨turn, hsub hmem, hturn⟩

/-- A unit that has its turn in one of two tours is left as that one leaves it. -/
theorem trans (hab : Left setting turns a b) (hbc : Left setting more b c)
    (honce : ∀ turn ∈ turns, ∀ other ∈ more, turn.unit.declared ≠ other.unit.declared) :
    Left setting (turns ++ more) a c := by
  rcases hab with rfl | ⟨turn, hmem, hunit, hb⟩
  · exact hbc.mono (List.subset_append_right turns more)
  · have hdeclared := (show Left setting turns a b from .inr ⟨turn, hmem, hunit, hb⟩).declared
    rcases hbc with rfl | ⟨other, hother, hsame, -⟩
    · exact .inr ⟨turn, List.mem_append_left more hmem, hunit, hb⟩
    · refine absurd ?_ (honce turn hmem other hother)
      rw [hunit, hsame, hdeclared]

end Entry.Left

theorem left_same (turns : List Turn) (entries : List Entry) :
    List.Forall₂ (Entry.Left setting turns) entries entries :=
  List.forall₂_same.mpr fun _ _ => .inl rfl

theorem left_trans {turns more : List Turn} {xs ys zs : List Entry}
    (hxy : List.Forall₂ (Entry.Left setting turns) xs ys)
    (hyz : List.Forall₂ (Entry.Left setting more) ys zs)
    (honce : ∀ turn ∈ turns, ∀ other ∈ more, turn.unit.declared ≠ other.unit.declared) :
    List.Forall₂ (Entry.Left setting (turns ++ more)) xs zs := by
  induction hxy generalizing zs with
  | nil =>
    cases hyz
    exact .nil
  | cons hfirst _ ih =>
    cases hyz with
    | cons hnext hrest => exact .cons (hfirst.trans hnext honce) (ih hrest)

/-- A unit that is not both to lead and to trail. -/
def Installable.OneBucket (unit : Installable) : Prop :=
  unit.has .lead = false ∨ unit.has .trail = false

theorem inBucket_iff {unit : Installable} (h : unit.OneBucket) (bucket : Bucket) :
    Catalog.inBucket unit bucket = true ↔ unit.bucket = bucket := by
  have hbucket : unit.bucket = if unit.has .lead then .lead
      else if unit.has .trail then .trail else .main := rfl
  rw [hbucket]
  unfold Installable.OneBucket at h
  cases hlead : unit.has .lead <;> cases htrail : unit.has .trail <;> cases bucket <;>
    simp_all [Catalog.inBucket]

theorem inBucket_of_declared_eq {unit other : Installable}
    (h : unit.declared = other.declared) : Catalog.inBucket unit = Catalog.inBucket other := by
  have hhas : unit.has = other.has := by
    rw [← Installable.has_declared, h, Installable.has_declared]
  funext bucket
  cases bucket <;> simp only [Catalog.inBucket, hhas]

namespace RunState

/-! ## Buckets -/

section Entries

variable {bucket : Bucket} {report : Report}

def units (bucket : Bucket) (entries : List Entry) : List Installable :=
  (entries.filter fun entry => Catalog.inBucket entry.unit bucket).map Entry.unit

theorem runEntries_snd (entries : List Entry) :
    (runEntries setting strict bucket entries report session).2 =
      (⟨report.units ++ (tour setting strict (units bucket entries) session).results setting⟩,
        (tour setting strict (units bucket entries) session).session,
        (tour setting strict (units bucket entries) session).error?) := by
  induction entries generalizing report session with
  | nil => simp [runEntries, units, tour, Tour.results]
  | cons entry rest ih =>
    by_cases hbucket : Catalog.inBucket entry.unit bucket = true
    · have hunits : units bucket (entry :: rest) = entry.unit :: units bucket rest := by
        simp [units, hbucket]
      rw [hunits, runEntries, if_pos hbucket, tour]
      simp only
      cases hresult : (setting.visit session entry.unit).result with
      | error error =>
        simp [Tour.results, Turn.result?_of_error hresult]
      | ok result =>
        have hsome := Turn.result?_of_ok hresult
        cases habort : abort? strict result with
        | some error => simp [habort, Tour.results, hsome, Report.push]
        | none => simp [habort, Tour.results, Tour.cons, hsome, ih, Report.push]
    · have hunits : units bucket (entry :: rest) = units bucket rest := by
        simp [units, hbucket]
      rw [hunits, runEntries, if_neg hbucket]
      exact ih

theorem runEntries_left (entries : List Entry) :
    List.Forall₂ (Entry.Left setting (tour setting strict (units bucket entries) session).turns)
      entries (runEntries setting strict bucket entries report session).1 := by
  induction entries generalizing report session with
  | nil => exact .nil
  | cons entry rest ih =>
    by_cases hbucket : Catalog.inBucket entry.unit bucket = true
    · have hunits : units bucket (entry :: rest) = entry.unit :: units bucket rest := by
        simp [units, hbucket]
      have hturn (turns : List Turn) : Entry.Left setting (⟨entry.unit, session⟩ :: turns) entry
          { entry with unit := (setting.visit session entry.unit).unit } :=
        .inr ⟨_, List.mem_cons_self, rfl, rfl⟩
      rw [hunits, runEntries, if_pos hbucket, tour]
      cases hresult : (setting.visit session entry.unit).result with
      | error error =>
        simp only [hresult]
        exact .cons (hturn _) (left_same _ rest)
      | ok result =>
        cases habort : abort? strict result with
        | some error =>
          simp only [hresult, habort]
          exact .cons (hturn _) (left_same _ rest)
        | none =>
          simp only [hresult, habort]
          exact .cons (hturn _) (ih.imp fun _ _ h => h.mono (List.subset_cons_self _ _))
    · have hunits : units bucket (entry :: rest) = units bucket rest := by
        simp [units, hbucket]
      rw [hunits, runEntries, if_neg hbucket]
      exact .cons (.inl rfl) ih

theorem units_runEntries {other : Bucket} (hother : bucket ≠ other) {entries : List Entry}
    (hentries : ∀ entry ∈ entries, entry.unit.OneBucket) :
    units other (runEntries setting strict bucket entries report session).1 =
      units other entries := by
  induction entries generalizing report session with
  | nil => rfl
  | cons entry rest ih =>
    have hrest : ∀ entry ∈ rest, entry.unit.OneBucket :=
      fun entry hmem => hentries entry (List.mem_cons_of_mem _ hmem)
    have hentry := inBucket_iff (hentries entry List.mem_cons_self)
    have hcons (e : Entry) (more less : List Entry)
        (he : Catalog.inBucket e.unit other = Catalog.inBucket entry.unit other)
        (hunit : Catalog.inBucket entry.unit other = true → e.unit = entry.unit)
        (h : units other more = units other less) :
        units other (e :: more) = units other (entry :: less) := by
      unfold units at h ⊢
      by_cases hin : Catalog.inBucket entry.unit other = true
      · simp [hin, hunit hin, h]
      · simp [he, hin, h]
    rw [runEntries]
    split
    · next hbucket =>
      have hnot : ¬ Catalog.inBucket entry.unit other = true := by
        rw [hentry] at hbucket ⊢
        exact fun h => hother (hbucket.symm.trans h)
      have hdeclared := (visit_kept setting session entry.unit).declared
      have hvisited := congrFun (inBucket_of_declared_eq hdeclared) other
      simp only
      split
      · exact hcons _ _ _ hvisited (absurd · hnot) rfl
      · split
        · exact hcons _ _ _ hvisited (absurd · hnot) rfl
        · exact hcons _ _ _ hvisited (absurd · hnot) (ih hrest)
    · exact hcons _ _ _ rfl (fun _ => rfl) (ih hrest)

end Entries

/-! ## Runs -/

def buckets (stages : List Stage) : List Bucket := stages.filterMap Stage.bucket?

/-- The units whose turn is still to come, in order. -/
def due (state : RunState) : List Installable :=
  (buckets state.progress.stage.later).flatMap (units · state.catalog.entries)

/-- A state and an error that a tour leads to. -/
structure LedBy (setting : Setting) (before after : RunState) (error? : Option RunError)
    (t : Tour) : Prop where
  session : after.session = t.session
  report : after.progress.report.units = before.progress.report.units ++ t.results setting
  entries : List.Forall₂ (Entry.Left setting t.turns) before.catalog.entries after.catalog.entries
  error : error? = t.error?

namespace LedBy

variable {a b c : RunState} {t : Tour}

theorem rest (state : RunState) : LedBy setting state state none ⟨[], state.session, none⟩ :=
  ⟨rfl, by simp [Tour.results], left_same _ _, rfl⟩

theorem andThen {error? : Option RunError} {next : Session → Tour} (hab : LedBy setting a b none t)
    (hbc : LedBy setting b c error? (next b.session))
    (honce : ∀ turn ∈ t.turns, ∀ other ∈ (next b.session).turns,
      turn.unit.declared ≠ other.unit.declared) :
    LedBy setting a c error? (t.andThen next) := by
  have hgoes : t.andThen next = { next b.session with turns := t.turns ++ (next b.session).turns } := by
    rw [Tour.andThen, ← hab.error, ← hab.session]
  rw [hgoes]
  refine ⟨hbc.session, ?_, ?_, hbc.error⟩
  · rw [hbc.report, hab.report, List.append_assoc]
    simp [Tour.results]
  · exact left_trans hab.entries hbc.entries honce

end LedBy

theorem runBucket_ledBy (bucket : Bucket) (state : RunState) :
    LedBy setting state (runBucket setting strict bucket state).1
      (runBucket setting strict bucket state).2
      (tour setting strict (units bucket state.catalog.entries) state.session) := by
  have hsnd : (runEntries setting strict bucket state.catalog.entries state.progress.report
    state.session).2 = _ := runEntries_snd _
  have hleft : List.Forall₂ _ _ (runEntries setting strict bucket state.catalog.entries
    state.progress.report state.session).1 := runEntries_left _
  unfold runBucket
  generalize runEntries setting strict bucket state.catalog.entries state.progress.report
    state.session = ran at hsnd hleft ⊢
  obtain ⟨entries, report, session, error?⟩ := ran
  simp only [Prod.mk.injEq] at hsnd
  obtain ⟨rfl, rfl, rfl⟩ := hsnd
  exact ⟨rfl, rfl, hleft, rfl⟩

theorem inBucket_of_mem_units {bucket : Bucket} {entries : List Entry} {unit : Installable}
    (h : unit ∈ units bucket entries) : Catalog.inBucket unit bucket = true ∧
      ∃ entry ∈ entries, entry.unit = unit := by
  obtain ⟨entry, hentry, rfl⟩ := List.mem_map.mp h
  rw [List.mem_filter] at hentry
  exact ⟨hentry.2, entry, hentry.1, rfl⟩

theorem exists_entry_of_due {state : RunState} {unit : Installable} (h : unit ∈ state.due) :
    ∃ entry ∈ state.catalog.entries, entry.unit = unit := by
  obtain ⟨bucket, -, hunit⟩ := List.mem_flatMap.mp h
  exact (inBucket_of_mem_units hunit).2

theorem declared_ne_of_bucket_ne {bucket other : Bucket} {unit second : Installable}
    (hunit : unit.OneBucket) (hne : bucket ≠ other)
    (hbucket : Catalog.inBucket unit bucket = true)
    (hother : Catalog.inBucket second other = true) : unit.declared ≠ second.declared := by
  intro hdeclared
  rw [← inBucket_of_declared_eq hdeclared, inBucket_iff hunit] at hother
  rw [inBucket_iff hunit] at hbucket
  exact hne (hbucket.symm.trans hother)

theorem oneBucket_of_left {turns : List Turn} {xs ys : List Entry}
    (h : List.Forall₂ (Entry.Left setting turns) xs ys)
    (hxs : ∀ entry ∈ xs, entry.unit.OneBucket) : ∀ entry ∈ ys, entry.unit.OneBucket := by
  induction h with
  | nil => exact hxs
  | cons hfirst _ ih =>
    rw [List.forall_mem_cons] at hxs ⊢
    refine ⟨?_, ih hxs.2⟩
    unfold Installable.OneBucket
    rw [← Installable.has_declared, hfirst.declared, Installable.has_declared]
    exact hxs.1

variable (setting strict) in
theorem runStages_ledBy {stages : List Stage} {state : RunState}
    (hstages : (buckets stages).Nodup)
    (hentries : ∀ entry ∈ state.catalog.entries, entry.unit.OneBucket) :
    LedBy setting state (runStages setting strict stages state).1
      (runStages setting strict stages state).2
      (tour setting strict ((buckets stages).flatMap (units · state.catalog.entries))
        state.session) := by
  induction stages generalizing state with
  | nil => exact .rest state
  | cons stage rest ih =>
    cases hbucket : stage.bucket? with
    | none =>
      have hbuckets : buckets (stage :: rest) = buckets rest := by simp [buckets, hbucket]
      rw [hbuckets] at hstages ⊢
      have hrest : LedBy setting { state with progress := state.progress.enter stage } _ _ _ :=
        ih hstages hentries
      unfold runStages
      simp only [hbucket]
      exact ⟨hrest.session, hrest.report, hrest.entries, hrest.error⟩
    | some bucket =>
      have hbuckets : buckets (stage :: rest) = bucket :: buckets rest := by
        simp [buckets, hbucket]
      rw [hbuckets, List.nodup_cons] at hstages
      rw [hbuckets, List.flatMap_cons, tour_append]
      have hran : LedBy setting _ _ _ (tour setting strict _ _) :=
        runBucket_ledBy bucket { state with progress := state.progress.enter stage }
      have hviews : ∀ other ∈ buckets rest, units other
          (runBucket setting strict bucket
            { state with progress := state.progress.enter stage }).1.catalog.entries =
          units other state.catalog.entries := by
        intro other hother
        have hne : bucket ≠ other := fun heq => hstages.1 (heq ▸ hother)
        exact units_runEntries hne hentries
      unfold runStages
      simp only [hbucket]
      split
      · next ran heq =>
        rw [heq] at hran hviews
        have hnext := ih hstages.2 (oneBucket_of_left hran.entries hentries)
        rw [List.flatMap_congr hviews] at hnext
        have hfirst : LedBy setting state ran none _ :=
          ⟨hran.session, hran.report, hran.entries, hran.error⟩
        refine hfirst.andThen hnext fun turn hturn other hother => ?_
        obtain ⟨hin, entry, hentry, hunit⟩ := inBucket_of_mem_units (unit_mem_of_mem_turns hturn)
        obtain ⟨second, hsecond, hmem⟩ := List.mem_flatMap.mp (unit_mem_of_mem_turns hother)
        have hne : bucket ≠ second := fun heq => hstages.1 (heq ▸ hsecond)
        exact declared_ne_of_bucket_ne (hunit ▸ hentries entry hentry) hne hin
          (inBucket_of_mem_units hmem).1
      · next ran error heq =>
        rw [heq] at hran
        have hends : (tour setting strict (units bucket state.catalog.entries)
            state.session).andThen (tour setting strict ((buckets rest).flatMap
              (units · state.catalog.entries))) =
            tour setting strict (units bucket state.catalog.entries) state.session := by
          have herror := hran.error
          simp only at herror
          rw [Tour.andThen, ← herror]
        rw [hends]
        exact ⟨hran.session, hran.report, hran.entries, hran.error⟩

theorem nodup_buckets_later (stage : Stage) : (buckets stage.later).Nodup := by
  cases stage <;> decide

variable (setting strict) in
theorem run_fst (state : RunState) :
    (run setting strict state).1 = (runStages setting strict state.progress.stage.later state).1 := by
  unfold run
  cases state.progress.stage.later with
  | nil => rfl
  | cons stage rest =>
    simp only
    split <;> next heq => rw [heq]

variable (setting strict) in
/-- A run of units that are in one bucket each is a tour of the units that are due. -/
theorem run_ledBy (state : RunState)
    (hentries : ∀ entry ∈ state.catalog.entries, entry.unit.OneBucket) :
    LedBy setting state (run setting strict state).1
      (tour setting strict state.due state.session).error?
      (tour setting strict state.due state.session) := by
  have hran := runStages_ledBy setting strict (nodup_buckets_later state.progress.stage) hentries
  rw [← due] at hran
  unfold run
  split
  · next hlater =>
    have hdue : state.due = [] := by simp [due, buckets, hlater]
    rw [hdue]
    exact .rest state
  · split
    · next heq =>
      rw [heq] at hran
      exact ⟨hran.session, hran.report, hran.entries, rfl⟩
    · next heq =>
      rw [heq] at hran
      exact ⟨hran.session, hran.report, hran.entries, rfl⟩

variable (setting strict) in
/-- A run ends as its tour does, or with an interrupt that has arrived after the last unit. -/
theorem run_snd (state : RunState) (hstage : state.progress.stage ≠ .done)
    (hentries : ∀ entry ∈ state.catalog.entries, entry.unit.OneBucket) :
    (run setting strict state).2 = match (tour setting strict state.due state.session).error? with
      | some error => .error error
      | none => if (run setting strict state).1.session.interrupted then .error .interrupted
        else .ok (run setting strict state).1.progress.report := by
  have hran := runStages_ledBy setting strict (nodup_buckets_later state.progress.stage) hentries
  rw [← due] at hran
  have herror := hran.error
  unfold run
  split
  · next hlater => cases hstage : state.progress.stage <;> simp_all [Stage.later]
  · split
    · next ran error heq =>
      rw [heq] at herror
      rw [← herror]
    · next ran heq =>
      rw [heq] at herror
      rw [← herror]

theorem due_of_fresh {catalog : Catalog} {session : Session} :
    RunState.due { catalog, session } = catalog.runOrder.map Entry.unit := by
  simp [due, buckets, units, Stage.later, Stage.bucket?, Catalog.runOrder, Bucket.all, Catalog.view]

end RunState

end

end Provision
