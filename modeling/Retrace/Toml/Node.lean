/-!
# Retrace — TOML trees

A TOML document is a tree of tables, arrays and scalars. How a table came about
decides what may still be added to it: one that was opened by a header is
closed to dotted keys, one that only stands on the way to another may still get
a header of its own, and one made by dotted keys may be extended by dotted keys
alone. A value is never extended. Floats and date-times are kept without their
value, which no setting asks for.
-/

namespace Retrace.Toml

/-- How a table came about. -/
inductive Origin where
  /-- By a header of its own, or as the root. -/
  | header
  /-- On the way to a table with a header. -/
  | implied
  /-- By a dotted key. -/
  | dotted
  deriving DecidableEq

/-- A node of a document. -/
inductive Node where
  | text (value : String)
  | integer (value : Int)
  | boolean (value : Bool)
  | float
  | dateTime
  | array (items : List Node)
  /-- A table written as a value. -/
  | inline (entries : List (String × Node))
  /-- A table of the document. -/
  | table (origin : Origin) (entries : List (String × Node))
  /-- An array of tables, each opened by a header. -/
  | tables (items : List (List (String × Node)))

/-- The entries of a table, in the order of their first appearance. -/
abbrev Entries := List (String × Node)

namespace Entries

/-- The node under a key. -/
def find? (entries : Entries) (key : String) : Option Node :=
  (List.find? (fun entry => entry.1 == key) entries).map (·.2)

/-- The entries with a node put under a key. -/
def put (entries : Entries) (key : String) (node : Node) : Entries :=
  match entries with
  | [] => [(key, node)]
  | entry :: rest =>
    if entry.1 = key then (key, node) :: rest else entry :: put rest key node

/-- The entries with a new node under a key that has none. -/
def putNew (entries : Entries) (key : String) (node : Node) : Option Entries :=
  match entries.find? key with
  | some _ => none
  | none => some (entries.put key node)

end Entries

/-! ## Changing a tree

A change follows a path of keys and then acts on the table found there. A
header's path makes implied tables where there are none and goes through any
table; a dotted key's path makes dotted ones and does not enter a table that
has a header. Both go into the last item of an array of tables. -/

/-- Follow a path from a table of the given origin and change the table there. -/
def follow (byDots : Bool) (change : Origin → Entries → Option Entries) :
    List String → Origin → Entries → Option Entries
  | [], origin, entries => change origin entries
  | key :: path, _, entries =>
    match entries.find? key with
    | none =>
      let made := if byDots then Origin.dotted else Origin.implied
      (follow byDots change path made []).map fun inner => entries.put key (.table made inner)
    | some (.table origin inner) =>
      if byDots && origin = .header then none
      else (follow byDots change path origin inner).map fun inner =>
        entries.put key (.table origin inner)
    | some (.tables items) =>
      match items.getLast? with
      | none => none
      | some last => (follow byDots change path .header last).map fun last =>
        entries.put key (.tables (items.dropLast ++ [last]))
    | some _ => none

/-- Put a node under a dotted key, given by the path to it and its last part. The table at the end
of a path must have been made by dots. -/
def insertDotted (path : List String) (key : String) (node : Node) (entries : Entries) :
    Option Entries :=
  follow true
    (fun origin inner =>
      if path.isEmpty || origin = .dotted then inner.putNew key node else none)
    path .header entries

/-- Open the table that a header names. -/
def openTable (path : List String) (key : String) (entries : Entries) : Option Entries :=
  follow false
    (fun _ inner =>
      match inner.find? key with
      | none => some (inner.put key (.table .header []))
      | some (.table .implied held) => some (inner.put key (.table .header held))
      | some _ => none)
    path .header entries

/-- Open a further item of the array of tables that a header names. -/
def openItem (path : List String) (key : String) (entries : Entries) : Option Entries :=
  follow false
    (fun _ inner =>
      match inner.find? key with
      | none => some (inner.put key (.tables [[]]))
      | some (.tables items) => some (inner.put key (.tables (items ++ [[]])))
      | some _ => none)
    path .header entries

/-- Put a node under a dotted key of the table that the last header opened. -/
def insertUnder (header path : List String) (key : String) (node : Node) (entries : Entries) :
    Option Entries :=
  follow false (fun _ inner => insertDotted path key node inner) header .header entries

end Retrace.Toml
