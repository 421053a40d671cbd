import Retrace.Toml.Scalar
/-!
# Retrace — TOML documents

A document is a sequence of lines, each of them empty, a header, or a key with
its value. Values nest: an array may run over several lines and may end in a
comma, a table written as a value stands on one line and may not. Nesting below
`depthLimit` is what bounds the recursion on values.
-/

namespace Retrace.Toml

/-! ## Values -/

/-- The rest of an array, its bracket taken; it has fewer than `fuel` items. -/
def arrayItems (item : Reader Node) : Nat → Reader (List Node)
  | 0, _ => none
  | fuel + 1, text =>
    match skipFiller text with
    | ']' :: rest => some ([], rest)
    | text => do
      let (node, rest) ← item text
      match skipFiller rest with
      | ',' :: rest =>
        let (nodes, rest) ← arrayItems item fuel rest
        some (node :: nodes, rest)
      | ']' :: rest => some ([node], rest)
      | _ => none

/-- A key with its value. -/
def pair? (item : Reader Node) (text : List Char) :
    Option ((List String × String × Node) × List Char) := do
  let ((path, key), rest) ← key? text
  let rest ← expect? '=' rest
  let (node, rest) ← item (skipSpaces rest)
  some ((path, key, node), rest)

/-- The pairs of a table written as a value, of which there are at most `fuel`. -/
def inlinePairs (item : Reader Node) : Nat → Entries → Reader Entries
  | 0, _, _ => none
  | fuel + 1, entries, text => do
    let ((path, key, node), rest) ← pair? item text
    let entries ← insertDotted path key node entries
    match skipSpaces rest with
    | ',' :: rest => inlinePairs item fuel entries rest
    | '\x7d' :: rest => some (entries, rest)
    | _ => none

/-- The rest of a table written as a value, its brace taken. -/
def inlineBody (item : Reader Node) (text : List Char) : Option (Entries × List Char) :=
  match skipSpaces text with
  | '\x7d' :: rest => some ([], rest)
  | text => inlinePairs item text.length [] text

/-- A value with at most the given nesting. -/
def value? : Nat → Reader Node
  | 0, text => scalar? text
  | depth + 1, text =>
    match text with
    | '[' :: rest =>
      (arrayItems (value? depth) (rest.length + 1) rest).map fun (items, rest) =>
        (.array items, rest)
    | '\x7b' :: rest =>
      (inlineBody (value? depth) rest).map fun (entries, rest) => (.inline entries, rest)
    | _ => scalar? text

/-! ## Lines -/

/-- What has been read of a document: its tree, and the last header. -/
structure Draft where
  root : Entries
  header : List String

/-- The rest of a line whose header has been read. -/
def closeHeader? (brackets : Nat) (text : List Char) : Option (List Char) :=
  match brackets with
  | 0 => lineEnd? text
  | count + 1 => (expect? ']' text).bind (closeHeader? count)

/-- Read one line that is not empty. -/
def line? (draft : Draft) (text : List Char) : Option (Draft × List Char) :=
  match text with
  | '[' :: '[' :: rest => do
    let ((path, key), rest) ← key? rest
    let rest ← closeHeader? 2 rest
    let root ← openItem path key draft.root
    some (⟨root, path ++ [key]⟩, rest)
  | '[' :: rest => do
    let ((path, key), rest) ← key? rest
    let rest ← closeHeader? 1 rest
    let root ← openTable path key draft.root
    some (⟨root, path ++ [key]⟩, rest)
  | _ => do
    let ((path, key, node), rest) ← pair? (value? (depthLimit - 1)) text
    let rest ← lineEnd? rest
    let root ← insertUnder draft.header path key node draft.root
    some (⟨root, draft.header⟩, rest)

/-- Read at most `fuel` lines. -/
def lines? : Nat → Draft → List Char → Option Entries
  | 0, _, _ => none
  | fuel + 1, draft, text =>
    match skipSpaces text with
    | [] => some draft.root
    | text =>
      match lineEnd? text with
      | some rest => lines? fuel draft rest
      | none => do
        let (draft, rest) ← line? draft text
        lines? fuel draft rest

/-- The text without a byte order mark. -/
def withoutByteOrderMark : List Char → List Char
  | '\ufeff' :: text => text
  | text => text

/-- Read a document: the entries of its root, unless it is malformed. -/
def read? (document : String) : Option Entries :=
  let text := withoutByteOrderMark document.toList
  lines? (text.length + 1) ⟨[], []⟩ text

end Retrace.Toml
