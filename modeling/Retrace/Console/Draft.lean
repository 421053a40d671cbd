import Retrace.Text.ByteCount
import Retrace.Text.Cluster
/-!
# Retrace — lines with backspaces

A line that is not typed at a terminal may hold backspaces. Each takes back the
cluster before it, and one with nothing before it is passed over. How much
there is to take back is kept as a byte for each cluster, the number of its
bytes modulo 256: a cluster below that length goes as a whole, a longer one
keeps its beginning.
-/

namespace Retrace

/-- A line in the making. -/
structure Draft where
  /-- The characters kept so far, the last first. -/
  text : List Char
  /-- For each cluster kept so far, the last first, the bytes to take back. -/
  sizes : List UInt8

namespace Draft

/-- Drop characters that fill the given number of bytes. -/
def dropBytes : Nat → List Char → List Char
  | _, [] => []
  | count, c :: rest =>
    if c.utf8Size ≤ count then dropBytes (count - c.utf8Size) rest else c :: rest

/-- Take back what was kept last. -/
def erase (draft : Draft) : Draft :=
  match draft.sizes with
  | [] => draft
  | size :: sizes => ⟨dropBytes size.toNat draft.text, sizes⟩

/-- Take a cluster. -/
def take (draft : Draft) (cluster : List Char) : Draft :=
  if cluster = ['\x08'] then draft.erase
  else ⟨cluster.reverse ++ draft.text, UInt8.ofNat (Text.byteCount cluster) :: draft.sizes⟩

/-- The line that remains of a line with backspaces. -/
def settle (line : String) : String :=
  let draft := (Text.clusters line.toList).foldl take ⟨[], []⟩
  String.ofList draft.text.reverse

end Draft

end Retrace
