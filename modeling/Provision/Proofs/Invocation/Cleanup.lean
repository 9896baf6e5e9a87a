import Mathlib.Data.List.Induction
import Provision.Children

/-!
# Cleaning up

An interrupt and the end of the program both ask for a cleanup, and processes may be started before,
between and after. Only the first cleanup does anything: it signals every process that is at work. A
process that is started later is tracked until it ends, but no cleanup signals it.
-/

namespace Provision.Children

/-- What may happen to the processes of a run. -/
inductive Operation where
  | register (pid : Nat)
  | unregister (pid : Nat)
  | terminate
deriving DecidableEq

/-- The processes that are tracked, and all that have been signalled so far. -/
structure Watch where
  children : Children := {}
  signalled : List Nat := []

namespace Watch

def perform (watch : Watch) : Operation → Watch
  | .register pid => { watch with children := watch.children.register pid }
  | .unregister pid => { watch with children := watch.children.unregister pid }
  | .terminate => ⟨watch.children.terminate.2, watch.signalled ++ watch.children.terminate.1⟩

def performAll (watch : Watch) (operations : List Operation) : Watch :=
  operations.foldl perform watch

end Watch

def after (operations : List Operation) : Watch := Watch.performAll {} operations

theorem after_append (front back : List Operation) :
    after (front ++ back) = (after front).performAll back :=
  List.foldl_append

theorem after_snoc (operations : List Operation) (operation : Operation) :
    after (operations ++ [operation]) = (after operations).perform operation :=
  after_append operations [operation]

/-- The process has been registered, and not unregistered since. -/
def Outstanding (operations : List Operation) (pid : Nat) : Prop :=
  ∃ before later, operations = before ++ .register pid :: later ∧ .unregister pid ∉ later

theorem not_outstanding_nil (pid : Nat) : ¬ Outstanding [] pid := by
  rintro ⟨before, later, hsplit, -⟩
  simp at hsplit

theorem outstanding_snoc {operations : List Operation} {operation : Operation} {pid : Nat} :
    Outstanding (operations ++ [operation]) pid ↔
      operation = .register pid ∨ operation ≠ .unregister pid ∧ Outstanding operations pid := by
  constructor
  · rintro ⟨before, later, hsplit, hnot⟩
    rcases List.eq_nil_or_concat later with rfl | ⟨rest, last, rfl⟩
    · obtain ⟨-, hlast⟩ := List.append_inj' hsplit rfl
      exact .inl (List.singleton_inj.mp hlast)
    · rw [List.concat_eq_append] at hsplit hnot
      rw [← List.cons_append, ← List.append_assoc] at hsplit
      obtain ⟨rfl, hlast⟩ := List.append_inj' hsplit rfl
      obtain rfl := List.singleton_inj.mp hlast
      rw [List.mem_append, not_or] at hnot
      exact .inr ⟨fun heq => hnot.2 (by simp [heq]), before, rest, rfl, hnot.1⟩
  · rintro (rfl | ⟨hne, before, later, rfl, hnot⟩)
    · exact ⟨operations, [], rfl, List.not_mem_nil⟩
    · refine ⟨before, later ++ [operation], by simp, ?_⟩
      simp [hnot, Ne.symm hne]

theorem outstanding_append_cons {first later : List Operation} {operation : Operation} {pid : Nat}
    (h : Outstanding (first ++ operation :: later) pid) (hne : operation ≠ .register pid) :
    Outstanding first pid ∨ Outstanding later pid := by
  obtain ⟨before, rest, hsplit, hnot⟩ := h
  rcases List.append_eq_append_iff.mp hsplit with ⟨middle, rfl, hmiddle⟩ | ⟨middle, rfl, hmiddle⟩
  · cases middle with
    | nil => exact absurd (List.cons.inj hmiddle).1 hne
    | cons head tail =>
      obtain ⟨-, rfl⟩ := List.cons.inj hmiddle
      exact .inr ⟨tail, rest, rfl, hnot⟩
  · cases middle with
    | nil => exact absurd (List.cons.inj hmiddle).1.symm hne
    | cons head tail =>
      obtain ⟨rfl, rfl⟩ := List.cons.inj hmiddle
      exact .inl ⟨before, tail, rfl, fun hmem => hnot (List.mem_append_left _ hmem)⟩

/-! ## Single operations -/

section Operations

variable {children : Children} {pid other : Nat}

theorem mem_register : other ∈ (children.register pid).pids ↔ other = pid ∨ other ∈ children.pids := by
  unfold register
  split
  · next hmem =>
    rw [List.contains_iff_mem] at hmem
    constructor
    · exact .inr
    · rintro (rfl | h)
      · exact hmem
      · exact h
  · exact List.mem_cons

theorem nodup_register (h : children.pids.Nodup) : (children.register pid).pids.Nodup := by
  unfold register
  split
  · exact h
  · next hnot =>
    rw [List.contains_iff_mem] at hnot
    exact List.nodup_cons.mpr ⟨hnot, h⟩

theorem cleanedUp_register : (children.register pid).cleanedUp = children.cleanedUp := by
  unfold register
  split <;> rfl

theorem mem_unregister :
    other ∈ (children.unregister pid).pids ↔ other ≠ pid ∧ other ∈ children.pids := by
  unfold unregister
  rw [List.mem_filter, bne_iff_ne, and_comm]

theorem terminate_of_cleanedUp (h : children.cleanedUp = true) :
    children.terminate = ([], children) :=
  if_pos h

theorem terminate_of_not_cleanedUp (h : children.cleanedUp = false) :
    children.terminate = (children.pids, { pids := [], cleanedUp := true }) :=
  if_neg (by simp [h])

end Operations

/-! ## Between two cleanups -/

/-- Operations that signal nothing, from a watch that tracks nothing. -/
structure Tracks (start watch : Watch) (operations : List Operation) : Prop where
  cleanedUp : watch.children.cleanedUp = start.children.cleanedUp
  signalled : watch.signalled = start.signalled
  distinct : watch.children.pids.Nodup
  tracked : ∀ pid, pid ∈ watch.children.pids ↔ Outstanding operations pid

theorem Tracks.snoc {start watch : Watch} {operations : List Operation} {operation : Operation}
    (h : Tracks start watch operations)
    (hidle : operation = .terminate → start.children.cleanedUp = true) :
    Tracks start (watch.perform operation) (operations ++ [operation]) := by
  cases operation with
  | register pid =>
    refine ⟨cleanedUp_register.trans h.cleanedUp, h.signalled, nodup_register h.distinct, ?_⟩
    intro other
    rw [outstanding_snoc, Watch.perform, mem_register, h.tracked]
    simp [eq_comm]
  | unregister pid =>
    refine ⟨h.cleanedUp, h.signalled, h.distinct.filter _, ?_⟩
    intro other
    rw [outstanding_snoc, Watch.perform, mem_unregister, h.tracked]
    simp [eq_comm]
  | terminate =>
    have hsame : watch.perform .terminate = watch := by
      rw [Watch.perform, terminate_of_cleanedUp (h.cleanedUp.trans (hidle rfl)), List.append_nil]
    rw [hsame]
    refine ⟨h.cleanedUp, h.signalled, h.distinct, ?_⟩
    intro other
    rw [outstanding_snoc, h.tracked]
    simp

theorem tracks_performAll {start : Watch} {operations : List Operation}
    (hstart : start.children.pids = [])
    (hidle : .terminate ∈ operations → start.children.cleanedUp = true) :
    Tracks start (start.performAll operations) operations := by
  induction operations using List.reverseRecOn with
  | nil =>
    refine ⟨rfl, rfl, ?_, fun pid => ?_⟩
    · exact hstart ▸ List.nodup_nil
    · rw [Watch.performAll, List.foldl_nil, hstart]
      exact iff_of_false List.not_mem_nil (not_outstanding_nil pid)
  | append_singleton earlier last ih =>
    rw [Watch.performAll, List.foldl_append]
    refine (ih fun hmem => hidle (List.mem_append_left _ hmem)).snoc ?_
    rintro rfl
    exact hidle (by simp)

/-! ## Cleanups -/

/-- What a cleanup is for: nothing is tracked after it, and no process that is outstanding has been
left without a signal. -/
structure CleanedUp (operations : List Operation) : Prop where
  count : (after (operations ++ [.terminate])).children.count = 0
  signalled : ∀ pid, Outstanding operations pid →
    pid ∈ (after (operations ++ [.terminate])).signalled

structure FirstCleanup (operations : List Operation) : Prop where
  cleanedUp : CleanedUp operations
  signalled : ∀ pid, pid ∈ (after (operations ++ [.terminate])).signalled ↔ Outstanding operations pid
  /-- No process is signalled twice. -/
  distinct : (after (operations ++ [.terminate])).signalled.Nodup

theorem after_first {operations : List Operation} (h : .terminate ∉ operations) :
    after (operations ++ [.terminate]) = ⟨⟨[], true⟩, (after operations).children.pids⟩ := by
  have htracks : Tracks {} (after operations) operations :=
    tracks_performAll rfl fun hmem => absurd hmem h
  rw [after_snoc, Watch.perform, terminate_of_not_cleanedUp htracks.cleanedUp, htracks.signalled]
  rfl

theorem firstCleanup {operations : List Operation} (h : .terminate ∉ operations) :
    FirstCleanup operations := by
  have htracks : Tracks {} (after operations) operations :=
    tracks_performAll rfl fun hmem => absurd hmem h
  refine ⟨⟨?_, ?_⟩, ?_, ?_⟩
  · rw [after_first h]
    rfl
  · intro pid hpid
    rw [after_first h]
    exact (htracks.tracked pid).mpr hpid
  · intro pid
    rw [after_first h]
    exact htracks.tracked pid
  · rw [after_first h]
    exact htracks.distinct

/-- What comes of the operations that follow the first cleanup, and of another cleanup then. -/
structure LaterCleanup (first later : List Operation) : Prop where
  idle : after (first ++ .terminate :: later ++ [.terminate]) = after (first ++ .terminate :: later)
  tracked : ∀ pid, pid ∈ (after (first ++ .terminate :: later)).children.pids ↔ Outstanding later pid
  signalled : ∀ pid, pid ∈ (after (first ++ .terminate :: later)).signalled ↔ Outstanding first pid
  /-- The cleanup fails its purpose exactly if a process has been started since the first one. -/
  cleanedUp : CleanedUp (first ++ .terminate :: later) ↔ ∀ pid, ¬ Outstanding later pid

theorem tracks_after_first {first : List Operation} (h : .terminate ∉ first)
    (later : List Operation) :
    Tracks (after (first ++ [.terminate])) (after (first ++ .terminate :: later)) later := by
  have hsplit : after (first ++ .terminate :: later) =
      (after (first ++ [.terminate])).performAll later := by
    rw [← after_append, List.append_assoc, List.singleton_append]
  rw [hsplit]
  apply tracks_performAll
  · rw [after_first h]
  · intro _
    rw [after_first h]

theorem laterCleanup {first : List Operation} (h : .terminate ∉ first) (later : List Operation) :
    LaterCleanup first later := by
  have htracks := tracks_after_first h later
  have hfirst := firstCleanup h
  have hidle : after (first ++ .terminate :: later ++ [.terminate]) =
      after (first ++ .terminate :: later) := by
    have hcleanedUp : (after (first ++ .terminate :: later)).children.cleanedUp = true := by
      rw [htracks.cleanedUp, after_first h]
    rw [after_snoc, Watch.perform, terminate_of_cleanedUp hcleanedUp, List.append_nil]
  refine ⟨hidle, htracks.tracked, ?_, ?_⟩
  · intro pid
    rw [htracks.signalled]
    exact hfirst.signalled pid
  · constructor
    · intro hcleaned pid hpid
      have hcount := hcleaned.count
      rw [hidle, count, List.length_eq_zero_iff] at hcount
      have hmem := (htracks.tracked pid).mpr hpid
      rw [hcount] at hmem
      cases hmem
    · intro hnone
      constructor
      · rw [hidle, count, List.length_eq_zero_iff, List.eq_nil_iff_forall_not_mem]
        exact fun pid hmem => hnone pid ((htracks.tracked pid).mp hmem)
      · intro pid hpid
        rw [hidle, htracks.signalled]
        have hbefore := (outstanding_append_cons hpid (by simp)).resolve_right (hnone pid)
        exact (hfirst.signalled pid).mpr hbefore

/-- The first cleanup signals every process at work; from then on no cleanup changes anything. -/
theorem cleanup_of_operations (first later : List Operation) (h : .terminate ∉ first) :
    FirstCleanup first ∧ LaterCleanup first later :=
  ⟨firstCleanup h, laterCleanup h later⟩

theorem cleanup_of_interrupted_operations :
    .terminate ∉ [Operation.register 1, .register 2, .unregister 1] ∧
    FirstCleanup [.register 1, .register 2, .unregister 1] ∧
    LaterCleanup [.register 1, .register 2, .unregister 1] [.register 3, .terminate, .register 2] := by
  have h : .terminate ∉ [Operation.register 1, .register 2, .unregister 1] := by decide
  exact ⟨h, cleanup_of_operations _ _ h⟩

/-- A process that is started after an interrupt is neither signalled nor forgotten at the end. -/
theorem late_process_is_left :
    after ([.register 1, .terminate, .register 2] ++ [.terminate]) = ⟨⟨[2], true⟩, [1]⟩ ∧
    ¬ CleanedUp [.register 1, .terminate, .register 2] := by
  have hafter : after ([.register 1, .terminate, .register 2] ++ [.terminate]) =
      ⟨⟨[2], true⟩, [1]⟩ := rfl
  refine ⟨hafter, fun hcleaned => ?_⟩
  have hcount := hcleaned.count
  rw [hafter] at hcount
  cases hcount

end Provision.Children
