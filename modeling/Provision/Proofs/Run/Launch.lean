import Provision.Proofs.Document.WellFormed
import Provision.Proofs.Run.Tour

/-!
# Launches

Runs are launched one after the other over the same files. Each has a document, a setting and
collaborators of its own, and finds the files as the one before has left them.
-/

namespace Provision

/-- The catalog as its document declares it, without what runs have left in its units. -/
def Catalog.declared (catalog : Catalog) : Catalog :=
  ⟨catalog.entries.map fun entry => { entry with unit := entry.unit.declared }⟩

theorem declared_congr {xs ys : List Entry}
    (h : List.Forall₂ (fun x y => y.line = x.line ∧ y.unit.declared = x.unit.declared) xs ys) :
    Catalog.declared ⟨ys⟩ = Catalog.declared ⟨xs⟩ := by
  unfold Catalog.declared
  induction h with
  | nil => rfl
  | cons hfirst _ ih =>
    obtain ⟨hline, hunit⟩ := hfirst
    simp_all

theorem declared_of_left {setting : Setting} {turns : List Turn} {xs ys : List Entry}
    (h : List.Forall₂ (Entry.Left setting turns) xs ys) :
    Catalog.declared ⟨ys⟩ = Catalog.declared ⟨xs⟩ :=
  declared_congr (h.imp fun _ _ hleft => ⟨hleft.line, hleft.declared⟩)

/-- A run, but for the files that it finds. -/
structure Launch where
  setting : Setting
  strict : Bool := false
  progress : Progress := {}
  catalog : Catalog
  interrupted : Bool := false

namespace Launch

def run (launch : Launch) (files : Files) : RunState × Except RunError Report :=
  RunState.run launch.setting launch.strict
    { progress := launch.progress, catalog := launch.catalog
      session := { files, interrupted := launch.interrupted } }

def trace (launch : Launch) (files : Files) : List Event := (launch.run files).1.session.trace

def after (launch : Launch) (files : Files) : Files := (launch.run files).1.session.files

def afterAll (files : Files) (launches : List Launch) : Files :=
  launches.foldl (fun files launch => launch.after files) files

def units (launch : Launch) : List Installable := launch.catalog.entries.map Entry.unit

/-- The run is one of an accepted document, fresh or run before. -/
def OfDocument (sourcesDir : Path) (launch : Launch) : Prop :=
  ∃ text, Document.parse sourcesDir text = .ok launch.catalog.declared

theorem OfDocument.wellFormed {sourcesDir : Path} {launch : Launch}
    (h : launch.OfDocument sourcesDir) :
    ∀ unit ∈ launch.units, unit.declared.WellFormed sourcesDir := by
  obtain ⟨text, hparse⟩ := h
  have hcatalog := (Document.wellFormed_of_parse hparse).units
  intro unit hunit
  obtain ⟨entry, hentry, rfl⟩ := List.mem_map.mp hunit
  exact hcatalog _ (List.mem_map_of_mem hentry)

/-- All that happens in launches one after the other. -/
def history (files : Files) : List Launch → List Event
  | [] => []
  | launch :: rest => launch.trace files ++ history (launch.after files) rest

end Launch

end Provision
