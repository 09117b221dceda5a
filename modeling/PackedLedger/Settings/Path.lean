namespace PackedLedger

/-!
# Paths with variables

A path may name environment variables and begin with a tilde.  A dollar sign in
front of a name, bare or in braces, stands for the variable's value; braces may
give a default after `:-`; two dollar signs stand for one.  A tilde alone or
before a slash stands for the home directory, unless it came out of a variable.
-/

namespace Settings

namespace Path

/-- A variable that is not set and has no default. -/
structure UnsetVariable where
  name : String
  deriving Repr, DecidableEq

/-- A path with its variables looked up on the way. -/
abbrev Expansion (Effect : Type -> Type) := ExceptT UnsetVariable Effect

variable {m : Type -> Type} [Monad m]

def isNameCharacter (character : Char) : Bool :=
  character.isAlphanum || character == '_'

/-- Split at the first `:-` that has a name in front of it. -/
def splitDefault (written : List Char) : List Char × Option (List Char) :=
  match find written with
  | some ([], _) | none => (written, none)
  | some (name, fallback) => (name, some fallback)
where
  find : List Char -> Option (List Char × List Char)
    | ':' :: '-' :: rest => some ([], rest)
    | character :: rest => (find rest).map fun (name, fallback) => (character :: name, fallback)
    | [] => none

/-- What braces around `written` stand for, the variable's value given.  An
empty value counts for nothing; without a default the braces stay. -/
def bracedValue (written : List Char) (value : Option String) : Option (List Char) :=
  let fallback := (splitDefault written).2
  match value with
  | some value =>
    if value.isEmpty then some (fallback.getD ('$' :: '\x7b' :: written ++ ['\x7d']))
    else some value.toList
  | none => fallback

/-- Replace the variables of a path of at most `fuel` characters. -/
def expandVariables (lookup : String -> m (Option String)) :
    Nat -> List Char -> Expansion m (List Char)
  | 0, characters => return characters
  | _ + 1, [] => return []
  | fuel + 1, '$' :: rest =>
    match rest with
    | '\x7b' :: inner =>
      match inner.span fun character => character != '\x7d' with
      | (written, _ :: rest) => do
        let name := String.ofList (splitDefault written).1
        match bracedValue written (← lookup name) with
        | some value => return value ++ (← expandVariables lookup fuel rest)
        | none => throw ⟨name⟩
      | (_, []) => return '$' :: '\x7b' :: (← expandVariables lookup fuel inner)
    | '$' :: rest => return '$' :: (← expandVariables lookup fuel rest)
    | rest =>
      match rest.span isNameCharacter with
      | ([], rest) => return '$' :: (← expandVariables lookup fuel rest)
      | (letters, rest) => do
        let name := String.ofList letters
        match ← lookup name with
        | some value => return value.toList ++ (← expandVariables lookup fuel rest)
        | none => throw ⟨name⟩
  | fuel + 1, character :: rest =>
    return character :: (← expandVariables lookup fuel rest)

/-- Replace a tilde that stands for the home directory. -/
def expandTilde (home : Option String) (characters : List Char) : List Char :=
  match characters, home with
  | ['~'], some home => home.toList
  | '~' :: '/' :: rest, some home => home.toList ++ '/' :: rest
  | characters, _ => characters

/-- Replace the variables and the tilde of a path. -/
def expand (lookup : String -> m (Option String)) (path : String) : Expansion m String := do
  let written := path.toList
  let expanded ← expandVariables lookup written.length written
  if written.head? = some '~' then
    return String.ofList (expandTilde (← lookup "HOME") expanded)
  else return String.ofList expanded

end Path

end Settings

end PackedLedger
