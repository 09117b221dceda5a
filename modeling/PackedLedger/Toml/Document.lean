import PackedLedger.Toml.Lexical
import PackedLedger.Toml.Table

namespace PackedLedger

/-!
# Reading a settings file

A document is a sequence of lines: table headers, keys with values, comments
and blank lines.  Values nest in arrays and inline tables to a bounded depth.
The readers of nested values share one fuel, which the length of the text
bounds: each of them takes at least one character or ends.
-/

namespace Toml

/-- A value that is a single word. -/
def word (characters : List Char) : Option (Value × List Char) :=
  match characters with
  | '"' :: _ | '\'' :: _ => (anyText characters).map fun (text, rest) => (.text text, rest)
  | 't' :: 'r' :: 'u' :: 'e' :: rest => some (.boolean true, rest)
  | 'f' :: 'a' :: 'l' :: 's' :: 'e' :: rest => some (.boolean false, rest)
  | _ => (moment characters).orElse fun _ => number characters

mutual

/-- A value at a nesting depth. -/
def value : Nat -> Nat -> List Char -> Option (Value × List Char)
  | 0, _, _ => none
  | fuel + 1, depth, characters =>
    match characters with
    | '[' :: rest =>
      if depthLimit ≤ depth + 1 then none
      else (elements fuel (depth + 1) rest).map fun (values, rest) => (.array values, rest)
    | '\x7b' :: rest =>
      if depthLimit ≤ depth + 1 then none
      else match skipBlanks rest with
        | '\x7d' :: rest => some (.table [], rest)
        | rest => (members fuel (depth + 1) [] rest).map fun (entries, rest) =>
          (.table (finishEntries entries), rest)
    | _ => word characters

/-- The elements of an array up to its closing bracket.  Lines may break
between them and a comma may follow the last one. -/
def elements : Nat -> Nat -> List Char -> Option (List Value × List Char)
  | 0, _, _ => none
  | fuel + 1, depth, characters =>
    match skipLines characters.length characters with
    | ']' :: rest => some ([], rest)
    | start => do
      let (first, rest) ← value fuel depth start
      match skipLines rest.length rest with
      | ']' :: rest => return ([first], rest)
      | ',' :: rest =>
        let (others, rest) ← elements fuel depth rest
        return (first :: others, rest)
      | _ => none

/-- The members of an inline table up to its closing brace, all on one line and
without a comma after the last one. -/
def members : Nat -> Nat -> Entries -> List Char -> Option (Entries × List Char)
  | 0, _, _, _ => none
  | fuel + 1, depth, entries, characters => do
    let ((path, name), rest) ← key characters
    let rest ← literal '=' rest
    let (member, rest) ← value fuel depth (skipBlanks rest)
    let entries ← entries.addKey path name member
    match skipBlanks rest with
    | ',' :: rest => members fuel depth entries rest
    | '\x7d' :: rest => return (entries, rest)
    | _ => none

end

/-- A document as far as it has been read: its tables, and the path to the one
that is open. -/
structure Progress where
  root : Entries
  opened : List String

namespace Progress

/-- The empty document, with its own table open. -/
def start : Progress :=
  ⟨[], []⟩

/-- Read a header and open its table. -/
def header (progress : Progress) (characters : List Char) : Option (Progress × List Char) :=
  match characters with
  | '[' :: rest => do
    let ((path, name), rest) ← key rest
    let rest ← literal ']' rest
    let rest ← literal ']' rest
    let root ← progress.root.openElement path name
    return (⟨root, path ++ [name]⟩, rest)
  | _ => do
    let ((path, name), rest) ← key characters
    let rest ← literal ']' rest
    let root ← progress.root.openTable path name
    return (⟨root, path ++ [name]⟩, rest)

/-- Read a key with its value into the open table. -/
def keyValue (progress : Progress) (characters : List Char) : Option (Progress × List Char) := do
  let ((path, name), rest) ← key characters
  let rest ← literal '=' rest
  let (read, rest) ← value (2 * rest.length + 2) 0 (skipBlanks rest)
  let root ← progress.root.descend (fun entries => entries.addKey path name read) progress.opened
  return (⟨root, progress.opened⟩, rest)

/-- Read the remaining lines. -/
def lines : Nat -> Progress -> List Char -> Option Entries
  | 0, _, _ => none
  | fuel + 1, progress, characters =>
    match skipBlanks characters with
    | [] => some progress.root
    | '[' :: rest => do
      let (progress, rest) ← progress.header rest
      lines fuel progress (← lineRest? rest)
    | first :: rest =>
      match lineRest? (first :: rest) with
      | some rest => lines fuel progress rest
      | none => do
        let (progress, rest) ← progress.keyValue (first :: rest)
        lines fuel progress (← lineRest? rest)

end Progress

/-- Read a document.  A byte-order mark in front of it is skipped. -/
def read? (text : String) : Option (List (String × Value)) :=
  let characters := match text.toList with
    | '\uFEFF' :: rest => rest
    | characters => characters
  (Progress.lines (characters.length + 1) .start characters).map finishEntries

end Toml

end PackedLedger
