import Retrace.Text.ClusterClass
/-!
# Retrace — clusters

A text falls into clusters, each of which a reader takes for one character.
`joins` decides from the cluster so far whether the next character still
belongs to it: a carriage return keeps its line feed, marks stay with what they
mark, the parts of a syllable stay together, linked consonants form a conjunct,
a joiner makes one picture of two, and the halves of flags pair off from the
left.
-/

namespace Retrace.Text

/-! ## The rule -/

/-- Whether characters of this class may stand between a pictograph and its joiner. -/
def ClusterClass.isMark : ClusterClass → Bool
  | .extender | .linker | .nonJoiner => true
  | _ => false

/-- Whether the cluster so far, its last class first, is a pictograph and marks on it. -/
def endsInPictograph (before : List ClusterClass) : Bool :=
  (before.dropWhile ClusterClass.isMark).head? = some .pictograph

/-- Whether the cluster so far, its last class first, ends in a consonant and marks on it, of which
one at least is a linker. -/
def endsInLinked : List ClusterClass → Bool
  | .linker :: before =>
    (before.dropWhile fun kind => kind = .extender ∨ kind = .linker ∨ kind = .joiner).head? =
      some .consonant
  | .extender :: before | .joiner :: before => endsInLinked before
  | _ => false

/-- Whether a character of the class `kind` belongs to the cluster so far, whose classes are given
with the last first. -/
def joins : List ClusterClass → ClusterClass → Bool
  | [], _ => false
  | last :: before, kind =>
    match last, kind with
    | .carriageReturn, .lineFeed => true
    | .carriageReturn, _ | .lineFeed, _ | .control, _ => false
    | _, .carriageReturn | _, .lineFeed | _, .control => false
    | _, .extender | _, .linker | _, .nonJoiner | _, .joiner | _, .spacingMark => true
    | .prepended, _ => true
    | .leading, .leading | .leading, .vowel | .leading, .openSyllable
    | .leading, .closedSyllable => true
    | .openSyllable, .vowel | .openSyllable, .trailing | .vowel, .vowel
    | .vowel, .trailing => true
    | .closedSyllable, .trailing | .trailing, .trailing => true
    | _, .consonant => endsInLinked (last :: before)
    | .joiner, .pictograph => endsInPictograph before
    | .regional, .regional => (before.takeWhile (· = .regional)).length % 2 = 0
    | _, _ => false

/-! ## Cutting -/

/-- A cluster that is still open, its last character first, with the classes of its characters. -/
structure OpenCluster where
  chars : List Char
  classes : List ClusterClass

/-- The clusters of a text that is read so far, the last one first. -/
def addChar : List OpenCluster → Char → List OpenCluster
  | [], c => [⟨[c], [ClusterClass.ofChar c]⟩]
  | cluster :: closed, c =>
    let kind := ClusterClass.ofChar c
    if joins cluster.classes kind then ⟨c :: cluster.chars, kind :: cluster.classes⟩ :: closed
    else ⟨[c], [kind]⟩ :: cluster :: closed

/-- The clusters of a text, in order. -/
def clusters (text : List Char) : List (List Char) :=
  ((text.foldl addChar []).map fun cluster => cluster.chars.reverse).reverse

end Retrace.Text
