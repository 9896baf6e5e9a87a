import Mathlib.Data.List.Chain
import Mathlib.Data.List.Forall2
import Provision.Proofs.Document.Blocks
import Provision.Text.Blank

/-!
# The partition of physical lines

The logical lines of a text divide its physical lines into blocks: every physical line is in one
block, the blocks follow each other, and a block ends with the first line that does not go on. There
is one such partition only. A logical line therefore has one newline for each line of its block but
the last, and its number tells the number of the one below it.
-/

namespace Provision.Document

open Text

/-! ## Lines that go on -/

/-- What a physical line holds is `part` and a single backslash. -/
def GoesOn (raw part : List Char) : Prop :=
  trimEnd (uncomment raw) = part ++ ['\\'] ∧ part.getLast? ≠ some '\\'

theorem goesOn_iff {raw part : List Char} :
    GoesOn raw part ↔ continued? (clean raw) = some part :=
  continued?_eq_some_iff.symm

theorem continues_iff_exists_goesOn {raw : List Char} :
    Continues raw ↔ ∃ part, GoesOn raw part := by
  simp only [goesOn_iff]
  exact Option.isSome_iff_exists

theorem exists_parts {begun : List (List Char)} (h : ∀ raw ∈ begun, Continues raw) :
    ∃ parts, List.Forall₂ GoesOn begun parts := by
  induction begun with
  | nil => exact ⟨[], .nil⟩
  | cons raw rest ih =>
    rw [List.forall_mem_cons] at h
    obtain ⟨part, hpart⟩ := continues_iff_exists_goesOn.mp h.1
    obtain ⟨parts, hparts⟩ := ih h.2
    exact ⟨part :: parts, .cons hpart hparts⟩

theorem continues_of_goesOn {begun parts : List (List Char)}
    (h : List.Forall₂ GoesOn begun parts) : ∀ raw ∈ begun, Continues raw := by
  induction h with
  | nil => exact List.forall_mem_nil _
  | cons hpart _ ih =>
    exact List.forall_mem_cons.mpr ⟨continues_iff_exists_goesOn.mpr ⟨_, hpart⟩, ih⟩

theorem joined_of_goesOn {begun parts : List (List Char)} (h : List.Forall₂ GoesOn begun parts) :
    joined begun = parts.flatMap (· ++ ['\n']) := by
  induction h with
  | nil => rfl
  | @cons raw part _ _ hpart _ ih =>
    have hadded : addition raw = part ++ ['\n'] := by rw [addition, goesOn_iff.mp hpart]
    rw [joined_cons, hadded, ih, List.flatMap_cons]

/-! ## The logical line of a block -/

/-- A logical line is made of the physical lines of a block. A newline stands for every backslash
that continues a line. -/
inductive Joins : Block → Line → Prop
  | closed {number : Nat} {begun parts : List (List Char)} {raw : List Char}
      (hbegun : List.Forall₂ GoesOn begun parts) (hraw : ∀ part, ¬ GoesOn raw part) :
      Joins ⟨number, begun, some raw⟩
        ⟨number, parts.flatMap (· ++ ['\n']) ++ trimEnd (uncomment raw)⟩
  | ended {number : Nat} {begun parts : List (List Char)}
      (hbegun : List.Forall₂ GoesOn begun parts) (hne : begun ≠ []) :
      Joins ⟨number, begun, none⟩ ⟨number, trimEnd (parts.flatMap (· ++ ['\n']))⟩

theorem joins_iff {block : Block} {line : Line} :
    Joins block line ↔ block.Formed ∧ line = block.line := by
  constructor
  · rintro (@⟨number, begun, parts, raw, hbegun, hraw⟩ | @⟨number, begun, parts, hbegun, hne⟩)
    · have hstops : ¬ Continues raw := by
        rw [continues_iff_exists_goesOn]
        exact not_exists.mpr hraw
      refine ⟨⟨continues_of_goesOn hbegun, ?_, by simp [Block.lines]⟩, ?_⟩
      · rintro _ ⟨rfl⟩
        exact hstops
      · rw [Block.line_of_closing number begun hstops, joined_of_goesOn hbegun, clean]
    · refine ⟨⟨continues_of_goesOn hbegun, by simp, by simpa [Block.lines] using hne⟩, ?_⟩
      rw [Block.line_of_end, joined_of_goesOn hbegun]
  · rintro ⟨hformed, rfl⟩
    obtain ⟨number, begun, closing?⟩ := block
    obtain ⟨parts, hparts⟩ := exists_parts hformed.begun
    cases closing? with
    | none =>
      rw [Block.line_of_end, joined_of_goesOn hparts]
      exact .ended hparts (by simpa [Block.lines] using hformed.ne_nil)
    | some raw =>
      have hstops := hformed.closing raw rfl
      rw [Block.line_of_closing number begun hstops, joined_of_goesOn hparts]
      exact .closed hparts fun part hpart => hstops (continues_iff_exists_goesOn.mpr ⟨part, hpart⟩)

theorem forall₂_joins_iff {blocks : List Block} {lines : List Line} :
    List.Forall₂ Joins blocks lines ↔
      (∀ block ∈ blocks, block.Formed) ∧ lines = blocks.map Block.line := by
  induction blocks generalizing lines with
  | nil => simp
  | cons block rest ih =>
    simp only [List.forall₂_cons_left_iff, joins_iff, ih, List.forall_mem_cons, List.map_cons]
    constructor
    · rintro ⟨_, _, ⟨hblock, rfl⟩, ⟨hrest, rfl⟩, rfl⟩
      exact ⟨⟨hblock, hrest⟩, rfl⟩
    · rintro ⟨⟨hblock, hrest⟩, rfl⟩
      exact ⟨_, _, ⟨hblock, rfl⟩, ⟨hrest, rfl⟩, rfl⟩

/-! ## Blocks in their places -/

/-- Every block has the number of its first physical line, if the first line of all has the number
`first`. Only the last block can be without a line that closes it. -/
def Placed (first : Nat) (blocks : List Block) : Prop :=
  ∀ above block below, blocks = above ++ block :: below →
    block.number = first + (above.flatMap Block.lines).length ∧
      (block.closing? = none → below = [])

theorem placed_cons_iff {first : Nat} {block : Block} {rest : List Block} :
    Placed first (block :: rest) ↔ block.number = first ∧ (block.closing? = none → rest = []) ∧
      Placed (first + block.lines.length) rest := by
  constructor
  · intro h
    obtain ⟨hnumber, hlast⟩ := h [] block rest rfl
    refine ⟨hnumber, hlast, fun above other below hsplit => ?_⟩
    have hother := h (block :: above) other below (by rw [hsplit, List.cons_append])
    rwa [List.flatMap_cons, List.length_append, ← Nat.add_assoc] at hother
  · rintro ⟨hnumber, hlast, hrest⟩ above other below hsplit
    cases above with
    | nil =>
      obtain ⟨rfl, rfl⟩ := List.cons.inj hsplit
      exact ⟨hnumber, hlast⟩
    | cons earlier above =>
      obtain ⟨rfl, hbehind⟩ := List.cons.inj hsplit
      rw [List.flatMap_cons, List.length_append, ← Nat.add_assoc]
      exact hrest above other below hbehind

theorem placed_blocksFrom (number : Nat) (begun rest : List (List Char)) :
    Placed number (blocksFrom number begun rest) := by
  have hnone : ∀ first, Placed first [] := fun first above block below hsplit => by simp at hsplit
  induction rest generalizing number begun with
  | nil =>
    rw [blocksFrom]
    split
    · exact hnone number
    · exact placed_cons_iff.mpr ⟨rfl, fun _ => rfl, hnone _⟩
  | cons raw rest ih =>
    rw [blocksFrom]
    split
    · exact ih number (begun ++ [raw])
    · have hlength : number + (Block.lines ⟨number, begun, some raw⟩).length =
          number + begun.length + 1 := by
        simp [Block.lines, Nat.add_assoc]
      refine placed_cons_iff.mpr ⟨rfl, fun hnone => absurd hnone (Option.some_ne_none raw), ?_⟩
      rw [hlength]
      exact ih (number + begun.length + 1) []

theorem blocksFrom_append {more : List (List Char)} (h : ∀ raw ∈ more, Continues raw)
    (number : Nat) (begun rest : List (List Char)) :
    blocksFrom number begun (more ++ rest) = blocksFrom number (begun ++ more) rest := by
  induction more generalizing begun with
  | nil => rw [List.nil_append, List.append_nil]
  | cons raw more ih =>
    rw [List.forall_mem_cons] at h
    rw [List.cons_append, blocksFrom, if_pos h.1, ih h.2, List.append_assoc, List.singleton_append]

/-- Blocks are found again from their physical lines. -/
theorem blocksFrom_flatMap_lines {first : Nat} {blocks : List Block}
    (hformed : ∀ block ∈ blocks, block.Formed) (hplaced : Placed first blocks) :
    blocksFrom first [] (blocks.flatMap Block.lines) = blocks := by
  induction blocks generalizing first with
  | nil => rfl
  | cons block rest ih =>
    obtain ⟨number, begun, closing?⟩ := block
    rw [List.forall_mem_cons] at hformed
    obtain ⟨rfl, hlast, hrest⟩ := placed_cons_iff.mp hplaced
    have hbegun := hformed.1.begun
    rw [List.flatMap_cons, Block.lines, List.append_assoc, blocksFrom_append hbegun,
      List.nil_append]
    cases closing? with
    | none =>
      obtain rfl := hlast rfl
      have hne : begun ≠ [] := by simpa [Block.lines] using hformed.1.ne_nil
      simp [blocksFrom, hne]
    | some raw =>
      have hnext := ih hformed.2 hrest
      rw [Block.lines, List.length_append, Option.toList_some, List.length_singleton,
        ← Nat.add_assoc] at hnext
      rw [Option.toList_some, List.singleton_append, blocksFrom,
        if_neg (hformed.1.closing raw rfl), hnext]

/-! ## Newlines -/

theorem not_mem_clean {raw : List Char} (h : '\n' ∉ raw) : '\n' ∉ clean raw := by
  obtain ⟨tail, hsplit, -⟩ := exists_trimEnd_append (uncomment raw)
  intro hmem
  have hkept : '\n' ∈ uncomment raw := by
    rw [hsplit]
    exact List.mem_append_left tail hmem
  exact h (subset_uncommentFrom none raw hkept)

theorem count_addition {raw : List Char} (h : '\n' ∉ raw) (hraw : Continues raw) :
    (addition raw).count '\n' = 1 := by
  obtain ⟨part, hpart, hadded⟩ := addition_of_continues hraw
  have hfree : '\n' ∉ part := fun hmem => not_mem_clean h (by simp [hpart, hmem])
  rw [hadded, List.count_append, List.count_eq_zero_of_not_mem hfree]
  rfl

theorem count_joined {begun : List (List Char)} (h : ∀ raw ∈ begun, '\n' ∉ raw)
    (hbegun : ∀ raw ∈ begun, Continues raw) : (joined begun).count '\n' = begun.length := by
  induction begun with
  | nil => rfl
  | cons raw rest ih =>
    rw [List.forall_mem_cons] at h hbegun
    rw [joined_cons, List.count_append, count_addition h.1 hbegun.1, ih h.2 hbegun.2,
      List.length_cons, Nat.add_comm]

theorem length_lines_of_closing {block : Block} (hformed : block.Formed)
    (hclosed : block.closing? ≠ none) (h : ∀ raw ∈ block.lines, '\n' ∉ raw) :
    block.lines.length = 1 + block.line.text.count '\n' := by
  obtain ⟨number, begun, closing?⟩ := block
  obtain ⟨raw, rfl⟩ := Option.ne_none_iff_exists'.mp hclosed
  have hbegun : ∀ raw ∈ begun, '\n' ∉ raw := fun raw hraw => h raw (by simp [Block.lines, hraw])
  have hraw : '\n' ∉ clean raw := not_mem_clean (h raw (by simp [Block.lines]))
  rw [Block.line_of_closing number begun (hformed.closing raw rfl), List.count_append,
    count_joined hbegun hformed.begun, List.count_eq_zero_of_not_mem hraw]
  simp [Block.lines, Nat.add_comm]

theorem number_of_next {first : Nat} {above below : List Block} {block next : Block}
    (h : Placed first (above ++ block :: next :: below)) :
    block.closing? ≠ none ∧ next.number = block.number + block.lines.length := by
  obtain ⟨hnumber, hlast⟩ := h above block (next :: below) rfl
  obtain ⟨hnext, -⟩ := h (above ++ [block]) next below (by simp)
  refine ⟨fun hnone => List.cons_ne_nil _ _ (hlast hnone), ?_⟩
  rw [hnumber, hnext]
  simp [List.flatMap_append, Nat.add_assoc]

/-! ## The partition -/

/-- `lines` are the logical lines of `blocks`, and these hold all physical lines in their order. -/
structure IsPartition (physical : List (List Char)) (blocks : List Block) (lines : List Line) :
    Prop where
  covered : blocks.flatMap Block.lines = physical
  joined : List.Forall₂ Joins blocks lines
  placed : Placed 1 blocks

theorem isPartition_blocks (text : List Char) :
    IsPartition (physicalLines text) (blocks text) (logicalLines text) where
  covered := flatMap_lines_blocks text
  joined := forall₂_joins_iff.mpr ⟨fun _ => formed_of_mem_blocks, logicalLines_eq text⟩
  placed := placed_blocksFrom 1 [] (physicalLines text)

theorem IsPartition.eq {text : List Char} {parts : List Block} {lines : List Line}
    (h : IsPartition (physicalLines text) parts lines) :
    parts = blocks text ∧ lines = logicalLines text := by
  obtain ⟨hformed, hlines⟩ := forall₂_joins_iff.mp h.joined
  have hblocks : blocks text = parts := by
    rw [blocks, ← h.covered]
    exact blocksFrom_flatMap_lines hformed h.placed
  exact ⟨hblocks.symm, by rw [hlines, logicalLines_eq, hblocks]⟩

theorem number_of_next_line {text : List Char} {above below : List Line} {line next : Line}
    (h : logicalLines text = above ++ line :: next :: below) :
    next.number = line.number + 1 + line.text.count '\n' := by
  have hpartition := isPartition_blocks text
  rw [logicalLines_eq] at h
  obtain ⟨front, rest, hsplit, rfl, hrest⟩ := List.map_eq_append_iff.mp h
  obtain ⟨block, more, rfl, rfl, hmore⟩ := List.map_eq_cons_iff.mp hrest
  obtain ⟨other, back, rfl, rfl, rfl⟩ := List.map_eq_cons_iff.mp hmore
  obtain ⟨hclosed, hnumber⟩ := number_of_next (hsplit ▸ hpartition.placed)
  have hmem : block ∈ blocks text := by simp [hsplit]
  have hfree : ∀ raw ∈ block.lines, '\n' ∉ raw := by
    intro raw hraw
    have hphysical : raw ∈ physicalLines text := by
      rw [← hpartition.covered]
      exact List.mem_flatMap.mpr ⟨block, hmem, hraw⟩
    exact not_mem_of_mem_physicalLines hphysical
  have hlength := length_lines_of_closing (formed_of_mem_blocks hmem) hclosed hfree
  simp only [Block.line] at hlength ⊢
  omega

/-- The logical lines of a text are those of the one partition of its physical lines into blocks,
and each is numbered by the one above it. -/
theorem logicalLines_partition (text : List Char) :
    (∀ lines, (∃ blocks, IsPartition (physicalLines text) blocks lines) ↔
      lines = logicalLines text) ∧
    (logicalLines text).IsChain fun line next =>
      next.number = line.number + 1 + line.text.count '\n' := by
  refine ⟨fun lines => ⟨?_, ?_⟩, ?_⟩
  · rintro ⟨_, hpartition⟩
    exact hpartition.eq.2
  · rintro rfl
    exact ⟨blocks text, isPartition_blocks text⟩
  · exact List.isChain_iff_forall_rel_of_append_cons_cons.mpr fun _ _ _ _ => number_of_next_line

/-- A unit line that goes on, and a last line that would. -/
example : logicalLines "a:\\ # x\n  flags: lead\nb \\\n".toList =
    [⟨1, "a:\n  flags: lead".toList⟩, ⟨3, "b".toList⟩] := by
  decide +kernel

end Provision.Document
