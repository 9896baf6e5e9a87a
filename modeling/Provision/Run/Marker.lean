import Provision.Failure
import Provision.Files
import Provision.Installable

/-!
# Markers

A script that may run only once leaves an empty file behind, named after its unit and its phase. The
file being there is all that a marker says.
-/

namespace Provision

structure MarkerStore where
  root : Path := ⟨"/var/lib/packlist/semaphores"⟩

namespace MarkerStore

def path (store : MarkerStore) (unit : String) (phase : Phase) : Path :=
  store.root.join (unit ++ "." ++ phase.onceFlag.token)

def has (store : MarkerStore) (files : Files) (unit : String) (phase : Phase) : Bool :=
  files.exists? (store.path unit phase)

/-- Leaves a marker. Its directory is made if it is missing. -/
def create (store : MarkerStore) (files : Files) (unit : String) (phase : Phase) :
    Files × Except Failure Path :=
  let path := store.path unit phase
  match files.makeDirectories store.root with
  | (made, some fault) =>
    (made, .error ⟨s!"Failed to create semaphore directory {store.root.text}", [fault.message]⟩)
  | (made, none) =>
    match made.write path ByteArray.empty with
    | .ok written => (written, .ok path)
    | .error fault =>
      (made, .error ⟨s!"Failed to create semaphore {path.text}", [fault.message]⟩)

end MarkerStore

end Provision
