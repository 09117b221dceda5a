import PackedLedger.Text
import PackedLedger.Toml.Table

namespace PackedLedger

/-!
# Words of a settings file

Readers for what stands between the brackets: blanks and comments, the four
kinds of string, numbers, dates and times.  Each takes the characters that are
left and gives its value and the rest, or nothing.  A reader takes as much as it
can, and what it leaves over is for the next one to refuse.
-/

namespace Toml

/-! ## Blanks, line ends, comments -/

def isBlank (character : Char) : Bool :=
  character == ' ' || character == '\t'

def skipBlanks (characters : List Char) : List Char :=
  characters.dropWhile isBlank

/-- Every character from the end of ASCII on. -/
def isBeyondAscii (character : Char) : Bool :=
  128 ≤ character.toNat

/-- A character that is neither a control character nor a line end. -/
def isPlain (character : Char) : Bool :=
  character == '\t' || (32 ≤ character.toNat && character.toNat < 127) || isBeyondAscii character

/-- What is left after a line end, if there is one. -/
def lineEnd? : List Char -> Option (List Char)
  | '\n' :: rest => some rest
  | '\r' :: '\n' :: rest => some rest
  | _ => none

/-- Drop a comment, up to its line end. -/
def skipComment : List Char -> List Char
  | '#' :: rest => rest.dropWhile isPlain
  | characters => characters

/-- What is left after blanks, a comment and the end of a line or of the text. -/
def lineRest? (characters : List Char) : Option (List Char) :=
  match skipComment (skipBlanks characters) with
  | [] => some []
  | rest => lineEnd? rest

/-- Drop blanks, comments and line ends, for at most `fuel` lines. -/
def skipLines : Nat -> List Char -> List Char
  | 0, characters => characters
  | fuel + 1, characters =>
    let trimmed := skipBlanks characters
    match lineEnd? (skipComment trimmed) with
    | some rest => skipLines fuel rest
    | none => trimmed

/-! ## Strings -/

/-- The value of a hexadecimal digit. -/
def hexValue? (character : Char) : Option Nat :=
  if character.isDigit then some (character.toNat - '0'.toNat)
  else if 'a' ≤ character && character ≤ 'f' then some (character.toNat - 'a'.toNat + 10)
  else if 'A' ≤ character && character ≤ 'F' then some (character.toNat - 'A'.toNat + 10)
  else none

/-- The value of exactly `count` hexadecimal digits. -/
def hexDigits : Nat -> Nat -> List Char -> Option (Nat × List Char)
  | 0, value, characters => some (value, characters)
  | count + 1, value, character :: rest =>
    match hexValue? character with
    | some digit => hexDigits count (16 * value + digit) rest
    | none => none
  | _ + 1, _, [] => none

/-- The character of a code point, if it is one. -/
def scalar? (code : Nat) : Option Char :=
  if code.isValidChar then some (Char.ofNat code) else none

/-- The character that an escape stands for, after the backslash. -/
def escaped : List Char -> Option (Char × List Char)
  | 'b' :: rest => some ('\x08', rest)
  | 't' :: rest => some ('\t', rest)
  | 'n' :: rest => some ('\n', rest)
  | 'f' :: rest => some ('\x0c', rest)
  | 'r' :: rest => some ('\r', rest)
  | '"' :: rest => some ('"', rest)
  | '\\' :: rest => some ('\\', rest)
  | 'u' :: rest => do
    let (code, rest) ← hexDigits 4 0 rest
    return (← scalar? code, rest)
  | 'U' :: rest => do
    let (code, rest) ← hexDigits 8 0 rest
    return (← scalar? code, rest)
  | _ => none

/-- The rest of a string on one line, up to its closing quote.  Backslashes
start an escape only between double quotes. -/
def quotedTail (quote : Char) : Nat -> List Char -> Option (List Char × List Char)
  | 0, _ => none
  | _ + 1, [] => none
  | fuel + 1, character :: rest =>
    if character == quote then some ([], rest)
    else if character == '\\' && quote == '"' then do
      let (meant, rest) ← escaped rest
      let (tail, rest) ← quotedTail quote fuel rest
      return (meant :: tail, rest)
    else if isPlain character then do
      let (tail, rest) ← quotedTail quote fuel rest
      return (character :: tail, rest)
    else none

/-- What is left after a backslash at the end of a line: the next character
that is neither blank nor a line end.  Nothing when the line goes on. -/
def foldedLine? (fuel : Nat) (characters : List Char) : Option (List Char) :=
  (lineEnd? (skipBlanks characters)).map (skipFolded fuel)
where
  skipFolded : Nat -> List Char -> List Char
    | 0, characters => characters
    | fuel + 1, characters =>
      let trimmed := skipBlanks characters
      match lineEnd? trimmed with
      | some rest => skipFolded fuel rest
      | none => trimmed

/-- The rest of a string over several lines.  Up to two quotes stand for
themselves, also right before the closing three. -/
def linesTail (quote : Char) : Nat -> List Char -> Option (List Char × List Char)
  | 0, _ => none
  | _ + 1, [] => none
  | fuel + 1, character :: rest =>
    if character == quote then
      let run := 1 + (rest.takeWhile fun next => next == quote).length
      let after := rest.dropWhile fun next => next == quote
      if run < 3 then do
        let (tail, rest) ← linesTail quote fuel after
        return (List.replicate run quote ++ tail, rest)
      else if run < 6 then some (List.replicate (run - 3) quote, after)
      else none
    else if character == '\\' && quote == '"' then
      match foldedLine? fuel rest with
      | some rest => linesTail quote fuel rest
      | none => do
        let (meant, rest) ← escaped rest
        let (tail, rest) ← linesTail quote fuel rest
        return (meant :: tail, rest)
    else if isPlain character then do
      let (tail, rest) ← linesTail quote fuel rest
      return (character :: tail, rest)
    else
      match lineEnd? (character :: rest) with
      | some rest => do
        let (tail, rest) ← linesTail quote fuel rest
        return ('\n' :: tail, rest)
      | none => none

/-- A string on one line. -/
def lineText (characters : List Char) : Option (String × List Char) :=
  match characters with
  | '"' :: rest => (quotedTail '"' characters.length rest).map fun (text, rest) =>
    (String.ofList text, rest)
  | '\'' :: rest => (quotedTail '\'' characters.length rest).map fun (text, rest) =>
    (String.ofList text, rest)
  | _ => none

/-- A string of any kind.  A line end right after three opening quotes is not
part of it. -/
def anyText (characters : List Char) : Option (String × List Char) :=
  match characters with
  | '"' :: '"' :: '"' :: rest => lines '"' rest
  | '\'' :: '\'' :: '\'' :: rest => lines '\'' rest
  | _ => lineText characters
where
  lines (quote : Char) (rest : List Char) : Option (String × List Char) :=
    (linesTail quote (rest.length + 1) ((lineEnd? rest).getD rest)).map fun (text, rest) =>
      (String.ofList text, rest)

/-! ## Keys -/

def isBareKey (character : Char) : Bool :=
  character.isAlphanum || character == '_' || character == '-'

/-- One part of a key, bare or quoted. -/
def keyPart (characters : List Char) : Option (String × List Char) :=
  match characters with
  | '"' :: _ | '\'' :: _ => lineText characters
  | _ =>
    let part := characters.takeWhile isBareKey
    if part.isEmpty then none else some (String.ofList part, characters.dropWhile isBareKey)

/-- The largest depth of nested brackets and of dotted keys, plus one. -/
def depthLimit : Nat := 80

/-- The parts of a key, with blanks around each. -/
def keyParts : Nat -> List Char -> Option (List String × List Char)
  | 0, _ => none
  | fuel + 1, characters => do
    let (part, rest) ← keyPart (skipBlanks characters)
    match skipBlanks rest with
    | '.' :: rest =>
      let (parts, rest) ← keyParts fuel rest
      return (part :: parts, rest)
    | rest => return ([part], rest)

/-- A key as the tables on its way and its last name. -/
def key (characters : List Char) : Option ((List String × String) × List Char) := do
  let (parts, rest) ← keyParts characters.length characters
  if depthLimit ≤ parts.length then none
  else return ((parts.dropLast, ← parts.getLast?), rest)

/-! ## Numbers -/

/-- Digits of a base with single underscores between them. -/
def groupedDigits (isDigit : Char -> Bool) : List Char -> Option (List Char × List Char)
  | [] => none
  | first :: rest => if isDigit first then some (more first rest) else none
where
  more (last : Char) : List Char -> List Char × List Char
    | '_' :: next :: rest =>
      if isDigit next then
        let (digits, rest) := more next rest
        (last :: digits, rest)
      else ([last], '_' :: next :: rest)
    | next :: rest =>
      if isDigit next then
        let (digits, rest) := more next rest
        (last :: digits, rest)
      else ([last], next :: rest)
    | [] => ([last], [])

/-- Decimal digits without a leading zero, or a lone zero. -/
def wholeDigits (characters : List Char) : Option (List Char × List Char) :=
  match characters with
  | '0' :: rest => some (['0'], rest)
  | _ => groupedDigits Char.isDigit characters

/-- An integer of another base that fits a signed word. -/
def basedInteger (base : Nat) (characters : List Char) : Option (Value × List Char) := do
  let isDigit := fun character =>
    ((hexValue? character).map fun digit => decide (digit < base)).getD false
  let (digits, rest) ← groupedDigits isDigit characters
  let value := digits.foldl (fun value digit => base * value + (hexValue? digit).getD 0) 0
  if value < powerOfTwo 63 then return (.integer value, rest) else none

/-- The digits after a point, if there is one. -/
def fractionDigits (characters : List Char) : Option (Option (List Char) × List Char) :=
  match characters with
  | '.' :: rest => (groupedDigits Char.isDigit rest).map fun (digits, rest) => (some digits, rest)
  | _ => some (none, characters)

/-- The exponent of ten, if one is written. -/
def exponentPart (characters : List Char) : Option (Option Int × List Char) :=
  match characters with
  | 'e' :: rest | 'E' :: rest => do
    let (negative, unsigned) := Text.splitSign rest
    let (digits, rest) ← groupedDigits Char.isDigit unsigned
    let value : Int := Text.digitsValue digits
    return (some (if negative then -value else value), rest)
  | _ => some (none, characters)

/-- Whether `digits`, counted in steps of ten to `exponent`, round to more than
the largest finite double. -/
def exceedsDouble (digits : Nat) (exponent : Int) : Bool :=
  let limit := powerOfTwo 1024 - powerOfTwo 970
  if digits == 0 then false
  else match exponent with
    | .ofNat shift => 400 < shift || limit ≤ digits * powerOfTen shift
    | .negSucc shift =>
      if (toString digits).length ≤ shift + 1 then false
      else limit * powerOfTen (shift + 1) ≤ digits

/-- A decimal number, an integer unless it has a fraction or an exponent. -/
def decimalNumber (negative : Bool) (characters : List Char) : Option (Value × List Char) := do
  let (whole, rest) ← wholeDigits characters
  let (fraction, rest) ← fractionDigits rest
  let (exponent, rest) ← exponentPart rest
  if fraction.isNone && exponent.isNone then
    let magnitude : Int := Text.digitsValue whole
    let value := if negative then -magnitude else magnitude
    if Text.FitsSigned 64 value then return (.integer value, rest) else none
  else
    let decimals := fraction.getD []
    let digits := Text.digitsValue (whole ++ decimals)
    if !negative && exceedsDouble digits (exponent.getD 0 - decimals.length) then none
    else return (.fractional, rest)

/-- A number in any notation. -/
def number (characters : List Char) : Option (Value × List Char) :=
  match characters with
  | '0' :: 'x' :: rest => basedInteger 16 rest
  | '0' :: 'o' :: rest => basedInteger 8 rest
  | '0' :: 'b' :: rest => basedInteger 2 rest
  | _ =>
    let (negative, unsigned) := Text.splitSign characters
    match unsigned with
    | 'i' :: 'n' :: 'f' :: rest | 'n' :: 'a' :: 'n' :: rest => some (.fractional, rest)
    | _ => decimalNumber negative unsigned

/-! ## Dates and times -/

/-- Exactly `count` digits with a value in a range. -/
def boundedDigits (count low high : Nat) (characters : List Char) : Option (Nat × List Char) :=
  let digits := characters.take count
  let value := Text.digitsValue digits
  if digits.length == count && digits.all Char.isDigit && low ≤ value && value ≤ high then
    some (value, characters.drop count)
  else none

/-- One given character. -/
def literal (expected : Char) : List Char -> Option (List Char)
  | character :: rest => if character == expected then some rest else none
  | [] => none

/-- The number of days of a month. -/
def monthDays (year month : Nat) : Nat :=
  if month == 2 then
    if year % 4 == 0 && (year % 100 != 0 || year % 400 == 0) then 29 else 28
  else if month == 4 || month == 6 || month == 9 || month == 11 then 30
  else 31

/-- What is left after a date. -/
def date? (characters : List Char) : Option (List Char) := do
  let (year, rest) ← boundedDigits 4 0 9999 characters
  let rest ← literal '-' rest
  let (month, rest) ← boundedDigits 2 1 12 rest
  let rest ← literal '-' rest
  let (_, rest) ← boundedDigits 2 1 (monthDays year month) rest
  return rest

/-- What is left after a time of day, with a fraction of a second or not. -/
def time? (characters : List Char) : Option (List Char) := do
  let (_, rest) ← boundedDigits 2 0 23 characters
  let rest ← literal ':' rest
  let (_, rest) ← boundedDigits 2 0 59 rest
  let rest ← literal ':' rest
  let (_, rest) ← boundedDigits 2 0 60 rest
  match rest with
  | '.' :: digit :: rest => if digit.isDigit then some (rest.dropWhile Char.isDigit) else none
  | _ => some rest

/-- What is left after the distance to universal time. -/
def zone? (characters : List Char) : Option (List Char) :=
  match characters with
  | 'Z' :: rest | 'z' :: rest => some rest
  | '+' :: rest | '-' :: rest => do
    let (_, rest) ← boundedDigits 2 0 23 rest
    let rest ← literal ':' rest
    let (_, rest) ← boundedDigits 2 0 59 rest
    return rest
  | _ => none

/-- What is left after the time that goes with a date, if one does. -/
def timeAfterDate? (characters : List Char) : Option (List Char) :=
  match characters with
  | mark :: rest =>
    if mark == 'T' || mark == 't' || mark == ' ' then
      (time? rest).map fun rest => (zone? rest).getD rest
    else none
  | [] => none

/-- A date, a time, or both. -/
def moment (characters : List Char) : Option (Value × List Char) :=
  match date? characters with
  | some rest => some (.moment, (timeAfterDate? rest).getD rest)
  | none => (time? characters).map fun rest => (.moment, rest)

end Toml

end PackedLedger
