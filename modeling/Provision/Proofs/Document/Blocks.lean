import Provision.Proofs.Document.Lines

/-!
# Blocks of physical lines

A logical line is made of a block of physical lines: some that go on, and one that closes them
unless the text ends first. The blocks of a text are its physical lines in their order.
-/

namespace Provision.Document

open Text

/-! ## What physical lines add -/

/-- What a physical line adds to its logical line. A backslash that continues it is a newline. -/
def addition (raw : List Char) : List Char :=
  match continued? (clean raw) with
  | some part => part ++ ['\n']
  | none => clean raw

def joined (lines : List (List Char)) : List Char := lines.flatMap addition

theorem joined_append (front back : List (List Char)) :
    joined (front ++ back) = joined front ++ joined back :=
  List.flatMap_append

theorem joined_cons (raw : List Char) (rest : List (List Char)) :
    joined (raw :: rest) = addition raw ++ joined rest :=
  List.flatMap_cons

theorem joined_singleton (raw : List Char) : joined [raw] = addition raw :=
  List.flatMap_singleton ..

theorem continued?_eq_some_iff {line part : List Char} :
    continued? line = some part ↔ line = part ++ ['\\'] ∧ part.getLast? ≠ some '\\' := by
  obtain ⟨back, rfl⟩ : ∃ back, part = back.reverse := ⟨part.reverse, by simp⟩
  have hreverse : line = back.reverse ++ ['\\'] ↔ line.reverse = '\\' :: back := by
    rw [← List.reverse_inj]
    simp
  rw [hreverse, List.getLast?_reverse]
  unfold continued?
  constructor
  · intro h
    split at h
    · cases h
    · next before hnot hline =>
      obtain rfl := List.reverse_inj.mp (Option.some.inj h)
      refine ⟨hline, fun hhead => ?_⟩
      obtain ⟨more, rfl⟩ := List.head?_eq_some_iff.mp hhead
      exact hnot more rfl
    · cases h
  · rintro ⟨hline, hhead⟩
    rw [hline]
    cases back with
    | nil => rfl
    | cons c more =>
      have hc : c ≠ '\\' := by simpa using hhead
      split <;> simp_all

theorem addition_of_continues {raw : List Char} (h : Continues raw) :
    ∃ part, clean raw = part ++ ['\\'] ∧ addition raw = part ++ ['\n'] := by
  obtain ⟨part, hpart⟩ := Option.isSome_iff_exists.mp h
  refine ⟨part, (continued?_eq_some_iff.mp hpart).1, ?_⟩
  rw [addition, hpart]

theorem addition_of_not_continues {raw : List Char} (h : ¬ Continues raw) :
    addition raw = clean raw := by
  have hnone : continued? (clean raw) = none := by simpa [Continues] using h
  rw [addition, hnone]

/-! ## Blocks -/

/-- The physical lines of one logical line, under the number of the first of them. -/
structure Block where
  number : Nat
  begun : List (List Char)
  /-- The line that closes the block; none if the text ends. -/
  closing? : Option (List Char)
deriving DecidableEq

namespace Block

def lines (block : Block) : List (List Char) := block.begun ++ block.closing?.toList

/-- The logical line. The end of the text leaves no blanks at its end. -/
def line (block : Block) : Line where
  number := block.number
  text := if block.closing?.isSome then joined block.lines else trimEnd (joined block.lines)

structure Formed (block : Block) : Prop where
  begun : ∀ raw ∈ block.begun, Continues raw
  closing : ∀ raw, block.closing? = some raw → ¬ Continues raw
  ne_nil : block.lines ≠ []

theorem line_of_closing (number : Nat) (begun : List (List Char)) {raw : List Char}
    (h : ¬ Continues raw) :
    line ⟨number, begun, some raw⟩ = ⟨number, joined begun ++ clean raw⟩ := by
  simp [line, lines, joined_append, joined_singleton, addition_of_not_continues h]

theorem line_of_end (number : Nat) (begun : List (List Char)) :
    line ⟨number, begun, none⟩ = ⟨number, trimEnd (joined begun)⟩ := by
  simp [line, lines]

end Block

/-- The blocks of physical lines, of which those of `begun` go on and are the first. -/
def blocksFrom (number : Nat) (begun : List (List Char)) : List (List Char) → List Block
  | [] => if begun.isEmpty then [] else [⟨number, begun, none⟩]
  | raw :: rest =>
    if Continues raw then blocksFrom number (begun ++ [raw]) rest
    else ⟨number, begun, some raw⟩ :: blocksFrom (number + begun.length + 1) [] rest

def blocks (text : List Char) : List Block := blocksFrom 1 [] (physicalLines text)

/-- The logical line that is at hand after some physical lines that go on. -/
def pendingOf (number : Nat) (begun : List (List Char)) : Option Line :=
  if begun.isEmpty then none else some ⟨number, joined begun⟩

theorem getD_pendingOf (number : Nat) (begun : List (List Char)) :
    (pendingOf number begun).getD ⟨number + begun.length, []⟩ = ⟨number, joined begun⟩ := by
  cases begun <;> rfl

theorem joinLines_pendingOf (number : Nat) (begun rest : List (List Char)) :
    joinLines (pendingOf number begun) (rest.zipIdx (number + begun.length)) =
      (blocksFrom number begun rest).map Block.line := by
  induction rest generalizing number begun with
  | nil =>
    cases begun with
    | nil => rfl
    | cons raw more => simp [joinLines, pendingOf, blocksFrom, Block.line_of_end]
  | cons raw rest ih =>
    rw [List.zipIdx_cons, joinLines, getD_pendingOf, blocksFrom]
    by_cases hraw : Continues raw
    · obtain ⟨part, hpart⟩ := Option.isSome_iff_exists.mp hraw
      have hadded : addition raw = part ++ ['\n'] := by rw [addition, hpart]
      have hpending : pendingOf number (begun ++ [raw]) =
          some ⟨number, joined begun ++ part ++ ['\n']⟩ := by
        simp [pendingOf, joined_append, joined_singleton, hadded]
      have hnext := ih number (begun ++ [raw])
      rw [hpending, List.length_append, List.length_singleton, ← Nat.add_assoc] at hnext
      rw [hpart, if_pos hraw]
      exact hnext
    · have hnone : continued? (clean raw) = none := by simpa [Continues] using hraw
      rw [hnone, if_neg hraw, List.map_cons, Block.line_of_closing number begun hraw]
      exact congrArg _ (ih (number + begun.length + 1) [])

theorem logicalLines_eq (text : List Char) : logicalLines text = (blocks text).map Block.line :=
  joinLines_pendingOf 1 [] (physicalLines text)

theorem flatMap_lines_blocksFrom (number : Nat) (begun rest : List (List Char)) :
    (blocksFrom number begun rest).flatMap Block.lines = begun ++ rest := by
  induction rest generalizing number begun with
  | nil => cases begun <;> simp [blocksFrom, Block.lines]
  | cons raw rest ih =>
    rw [blocksFrom]
    split
    · rw [ih, List.append_assoc, List.singleton_append]
    · rw [List.flatMap_cons, ih]
      simp [Block.lines]

theorem flatMap_lines_blocks (text : List Char) :
    (blocks text).flatMap Block.lines = physicalLines text :=
  flatMap_lines_blocksFrom 1 [] _

theorem formed_of_mem_blocksFrom {number : Nat} {begun rest : List (List Char)} {block : Block}
    (hbegun : ∀ raw ∈ begun, Continues raw) (h : block ∈ blocksFrom number begun rest) :
    block.Formed := by
  induction rest generalizing number begun with
  | nil =>
    rw [blocksFrom] at h
    split at h
    · cases h
    · next hne =>
      obtain rfl := List.mem_singleton.mp h
      exact ⟨hbegun, by simp, by simpa [Block.lines] using hne⟩
  | cons raw rest ih =>
    rw [blocksFrom] at h
    split at h
    · next hraw =>
      refine ih ?_ h
      simpa [or_imp, forall_and] using ⟨hbegun, hraw⟩
    · next hraw =>
      rcases List.mem_cons.mp h with rfl | h
      · refine ⟨hbegun, ?_, by simp [Block.lines]⟩
        rintro _ ⟨rfl⟩
        exact hraw
      · exact ih (by simp) h

theorem formed_of_mem_blocks {text : List Char} {block : Block} (h : block ∈ blocks text) :
    block.Formed :=
  formed_of_mem_blocksFrom (by simp) h

end Provision.Document
