import Provision.Text.Piece

/-!
# Downloads

The name under which a download is kept: the last segment of the address, without its query and
fragment. An address that has no usable last segment gives a fixed name.
-/

namespace Provision.Download

open Text

def fallbackName : List Char := "download.deb".toList

/-- A segment that can be the name of a file in a directory. -/
def isUsable (segment : List Char) : Bool :=
  !segment.isEmpty && segment != ['.'] && segment != ['.', '.']

def fileName (url : List Char) : List Char :=
  let bare := url.takeWhile fun c => c != '?' && c != '#'
  let place := (after? "://".toList bare).getD bare
  match (cut? (· = '/') place).bind fun (_, path) => (pieces '/' path).getLast? with
  | some segment => if isUsable segment then segment else fallbackName
  | none => fallbackName

theorem isUsable_fileName (url : List Char) : isUsable (fileName url) = true := by
  simp only [fileName]
  split
  · split
    · assumption
    · decide +kernel
  · decide +kernel

end Provision.Download
