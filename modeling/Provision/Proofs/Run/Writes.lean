import Provision.Proofs.Files.Tree
import Provision.Run.Visit

/-!
# What a run writes itself

A source file that was missing is added where it belongs, with the directories on the way to it.
Nothing that is there already changes.
-/

namespace Provision

open Files

/-- A source file at its place, or a directory on the way to it. -/
def SourceEntry (place : Location) (content : ByteArray) (l : Location) (node : Node) : Prop :=
  OnTheWay place l node ∨ l = place ∧ node = .file content

theorem SourceEntry.prefix {place l : Location} {content : ByteArray} {node : Node}
    (h : SourceEntry place content l node) : l <+: place := by
  rcases h with h | ⟨rfl, -⟩
  · exact h.1
  · exact List.prefix_rfl

theorem write_grows {fs made after : Files} {dir : Path} {name : String} {content : ByteArray}
    (htree : fs.IsTree) (hdir : dir.IsStraight) (hname : Path.IsName name)
    (hmissing : fs.exists? (dir.join name) = false)
    (hmade : Grows (OnTheWay ((dir.join name).place fs.cwd)) fs made)
    (h : made.write (dir.join name) content = .ok after) :
    Grows (SourceEntry ((dir.join name).place fs.cwd) content) fs after := by
  obtain ⟨hspell, hparent, hfree, rfl⟩ := write_join_eq_ok hdir hname h
  rw [hmade.cwd] at hparent hfree ⊢
  rw [Path.place_join dir hname] at hmade ⊢
  have hnone : made.at? (dir.place fs.cwd ++ [name]) = none := by
    rcases hmade.same (dir.place fs.cwd ++ [name]) with hsame | ⟨-, node, hnode, hway⟩
    · rw [hsame]
      by_contra hsome
      have hexists := (exists?_join_iff htree hdir hname).mpr
        ⟨hspell, Option.isSome_iff_ne_none.mpr hsome⟩
      rw [hmissing] at hexists
      cases hexists
    · rw [hway.2] at hnode
      exact absurd hnode hfree
  exact (hmade.mono fun _ _ => .inl).trans (Grows.put hparent hnone (.inr ⟨rfl, rfl⟩))

theorem putSource_session {work : Work} {entry : SourceFile} {dir : Path} {name : String}
    (htree : work.session.files.IsTree) (hdir : dir.IsStraight) (hname : Path.IsName name)
    (hpath : entry.path = dir.join name)
    (hmissing : work.session.files.exists? entry.path = false) :
    ∃ files, Grows (SourceEntry (entry.path.place work.session.files.cwd) entry.bytes)
      work.session.files files ∧
      ((work.putSource entry).1.session = { work.session with files } ∨
        (work.putSource entry).1.session =
          { work.session with files }.note (.wroteSource entry.path)) := by
  have hgrows := makeParent_grows work.session.files (Path.isStraight_join hdir hname)
  rw [hpath] at hmissing
  unfold Work.putSource
  rw [hpath]
  generalize work.session.files.makeParent (dir.join name) = result at hgrows ⊢
  obtain ⟨made, fault?⟩ := result
  have hmade : Grows (SourceEntry ((dir.join name).place work.session.files.cwd) entry.bytes)
      work.session.files made := hgrows.mono fun _ _ => .inl
  cases fault? with
  | some fault => exact ⟨made, hmade, .inl rfl⟩
  | none =>
    simp only
    split
    · next written hwrite =>
      exact ⟨written, write_grows htree hdir hname hmissing hgrows hwrite, .inr rfl⟩
    · exact ⟨made, hmade, .inl rfl⟩

end Provision
