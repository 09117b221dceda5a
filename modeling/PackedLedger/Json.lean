namespace PackedLedger

/-!
# Structured reports

Reports can be printed as JSON.  Only what reports hold is here: integers and
no fractions, and objects whose members keep the order they were given in.  The
layout puts every member and every element on a line of its own, indented by
two spaces for each level; empty containers stay closed.
-/

inductive Json where
  | null
  | integer (value : Int)
  | text (value : String)
  | array (elements : List Json)
  | object (members : List (String × Json))
  deriving Repr

namespace Json

/-- A hexadecimal digit below sixteen. -/
private def hexDigit (value : Nat) : Char :=
  Nat.digitChar value

/-- A character as it is written inside quotes. -/
def escape (character : Char) : List Char :=
  if character == '"' then ['\\', '"']
  else if character == '\\' then ['\\', '\\']
  else if character == '\n' then ['\\', 'n']
  else if character == '\r' then ['\\', 'r']
  else if character == '\t' then ['\\', 't']
  else if character == '\x08' then ['\\', 'b']
  else if character == '\x0c' then ['\\', 'f']
  else if character.toNat < 32 then
    ['\\', 'u', '0', '0', hexDigit (character.toNat / 16), hexDigit (character.toNat % 16)]
  else [character]

/-- A text in quotes. -/
def quoted (text : String) : String :=
  String.ofList ('"' :: text.toList.flatMap escape ++ ['"'])

/-- A line break followed by the indentation of `depth` levels. -/
def lineBreak (depth : Nat) : String :=
  String.ofList ('\n' :: List.replicate (2 * depth) ' ')

mutual

/-- The text of a value that stands at `depth`. -/
def layout (depth : Nat) : Json -> String
  | .null => "null"
  | .integer value => toString value
  | .text value => quoted value
  | .array [] => "[]"
  | .array (first :: rest) =>
    "[" ++ lineBreak (depth + 1) ++ layout (depth + 1) first ++ layoutElements (depth + 1) rest ++
      lineBreak depth ++ "]"
  | .object [] => "\x7b\x7d"
  | .object ((name, first) :: rest) =>
    "\x7b" ++ lineBreak (depth + 1) ++ quoted name ++ ": " ++ layout (depth + 1) first ++
      layoutMembers (depth + 1) rest ++ lineBreak depth ++ "\x7d"

/-- The text of the elements after the first. -/
def layoutElements (depth : Nat) : List Json -> String
  | [] => ""
  | next :: rest => "," ++ lineBreak depth ++ layout depth next ++ layoutElements depth rest

/-- The text of the members after the first. -/
def layoutMembers (depth : Nat) : List (String × Json) -> String
  | [] => ""
  | (name, next) :: rest =>
    "," ++ lineBreak depth ++ quoted name ++ ": " ++ layout depth next ++
      layoutMembers depth rest

end

/-- The text of a document. -/
def document (value : Json) : String :=
  layout 0 value

end Json

end PackedLedger
