namespace PackedLedger

/-!
# Values and tables of settings files

Settings are written in TOML.  A document is a table of named values.  Numbers
with a fraction and dates are legal in a document but no setting holds one, so
only their kind is kept.
-/

namespace Toml

inductive Value where
  | text (value : String)
  | integer (value : Int)
  | fractional
  | boolean (value : Bool)
  | moment
  | array (elements : List Value)
  | table (entries : List (String × Value))
  deriving Repr

/-- The value under a name, if there is one. -/
def find? (entries : List (String × Value)) (name : String) : Option Value :=
  entries.lookup name

/-!
## Building the tables of a document

A document opens tables by headers and adds values to the open one, and a
dotted key opens tables on its way.  What may be opened again depends on how a
table came to be: one that a header named is closed for dotted keys, one that a
header only passed through can still be named once, and one that a dotted key
made takes further dotted keys but no header of its own.
-/

/-- How a table came to be. -/
inductive Opening where
  /-- Named by a header. -/
  | named
  /-- Passed through on the way to a header's table. -/
  | passed
  /-- Made by a dotted key. -/
  | dotted
  deriving Repr, DecidableEq

/-- A value or a table under construction. -/
inductive Node where
  | value (value : Value)
  | table (opening : Opening) (entries : List (String × Node))
  /-- A table for each header in double brackets, the latest apart. -/
  | tables (latest : List (String × Node)) (earlier : List (List (String × Node)))

/-- The entries of a table under construction, in order. -/
abbrev Entries := List (String × Node)

namespace Entries

/-- Change what stands under a name, or append it.  The change sees nothing
when the name is new, and may refuse. -/
def adjust (name : String) (change : Option Node -> Option Node) : Entries -> Option Entries
  | [] => (change none).map fun node => [(name, node)]
  | (key, node) :: rest =>
    if key == name then (change (some node)).map fun changed => (key, changed) :: rest
    else (adjust name change rest).map fun changed => (key, node) :: changed

/-- Change the entries of the table that a header's path leads to, the latest
one of several. -/
def descend (change : Entries -> Option Entries) : List String -> Entries -> Option Entries
  | [], entries => change entries
  | step :: path, entries =>
    entries.adjust step fun
      | none => (descend change path []).map (.table .passed)
      | some (.value _) => none
      | some (.table opening inner) => (descend change path inner).map (.table opening)
      | some (.tables latest earlier) =>
        (descend change path latest).map fun changed => .tables changed earlier

/-- Put a value under a name that is still free. -/
def add (name : String) (value : Value) (entries : Entries) : Option Entries :=
  entries.adjust name fun
    | none => some (.value value)
    | some _ => none

/-- Put a value at the end of a dotted path below a table.  The last table of
the path has to be one that dotted keys made. -/
def addBelow (name : String) (value : Value) :
    Opening -> List String -> Entries -> Option Entries
  | opening, [], entries => if opening = .dotted then entries.add name value else none
  | _, step :: path, entries =>
    entries.adjust step fun
      | none => (addBelow name value .dotted path []).map (.table .dotted)
      | some (.value _) => none
      | some (.table .named _) => none
      | some (.table opening inner) =>
        (addBelow name value opening path inner).map (.table opening)
      | some (.tables latest earlier) =>
        (addBelow name value .named path latest).map fun changed => .tables changed earlier

/-- Put a value under a key, dotted or not. -/
def addKey (path : List String) (name : String) (value : Value) (entries : Entries) :
    Option Entries :=
  match path with
  | [] => entries.add name value
  | _ :: _ => addBelow name value .named path entries

/-- Open the table that a header names. -/
def openTable (path : List String) (name : String) (entries : Entries) : Option Entries :=
  entries.descend (fun inner => inner.adjust name fun
    | none => some (.table .named [])
    | some (.table .passed kept) => some (.table .named kept)
    | some _ => none) path

/-- Open one more table of the list that a header in double brackets names. -/
def openElement (path : List String) (name : String) (entries : Entries) : Option Entries :=
  entries.descend (fun inner => inner.adjust name fun
    | none => some (.tables [] [])
    | some (.tables latest earlier) => some (.tables [] (latest :: earlier))
    | some _ => none) path

end Entries

mutual

/-- The finished value of a node. -/
def Node.finish : Node -> Value
  | .value value => value
  | .table _ entries => .table (finishEntries entries)
  | .tables latest earlier =>
    .array ((finishTables earlier).reverse ++ [.table (finishEntries latest)])

def finishEntries : List (String × Node) -> List (String × Value)
  | [] => []
  | (name, node) :: rest => (name, node.finish) :: finishEntries rest

def finishTables : List (List (String × Node)) -> List Value
  | [] => []
  | entries :: rest => .table (finishEntries entries) :: finishTables rest

end

end Toml

end PackedLedger
