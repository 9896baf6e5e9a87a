/-!
# Sorted lists as sets

A finite set is kept as its members in increasing order, so that two sets with the same members are
the same list. `insert` keeps the order and drops a member that is already there.
-/

namespace Provision.Sorted

variable {α : Type} [LT α] [DecidableLT α] [DecidableEq α]

def insert (a : α) : List α → List α
  | [] => [a]
  | b :: rest => if a = b then b :: rest else if a < b then a :: b :: rest else b :: insert a rest

def ofList (items : List α) : List α := items.foldl (fun set a => insert a set) []

theorem mem_insert (x a : α) (set : List α) : x ∈ insert a set ↔ x = a ∨ x ∈ set := by
  induction set with
  | nil => simp [insert]
  | cons b rest ih =>
    simp only [insert]
    split
    · simp_all
    · split
      · simp
      · simp only [List.mem_cons, ih, or_left_comm]

theorem mem_ofList (x : α) (items : List α) : x ∈ ofList items ↔ x ∈ items := by
  have general : ∀ set : List α,
      x ∈ items.foldl (fun set a => insert a set) set ↔ x ∈ set ∨ x ∈ items := by
    induction items with
    | nil => simp
    | cons a rest ih =>
      intro set
      simp only [List.foldl_cons, ih, mem_insert, List.mem_cons, or_assoc, or_left_comm]
  simpa [ofList] using general []

end Provision.Sorted
