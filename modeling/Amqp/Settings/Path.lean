/-!
# Paths of settings

A key such as `link.prefetch` or `session.offered_capabilities[0]` leads to a place in a tree of
settings: through groups by name, and through rows by place.  `Path.ofKey` reads a key.  Names may
be written in either case, and `Step.lowerCase` gives the spelling that a tree keeps them under.
-/

namespace Amqp.Settings

/-- A step from a tree to a part of it. -/
inductive Step where
  | name (s : String)
  | place (i : Int)

/-- The steps from the root of a tree to a part of it. -/
abbrev Path := List Step

/-! ## Names -/

/-- The lower case of a character, as far as names of settings need it: they are ASCII, and the only
letter beyond ASCII whose lower case is an ASCII letter is the Kelvin sign. -/
def Step.lowerCaseChar (c : Char) : Char := if c = '\u212A' then 'k' else c.toLower

/-- A name in lower case. -/
def Step.lowerCase (s : String) : String := String.ofList (s.toList.map lowerCaseChar)

/-- Whether a character may stand in a name on a path. -/
def Step.isNameChar (c : Char) : Bool := c.isAlphanum || c == '_' || c == '-' || c == ' '

/-! ## Keys -/

namespace Path

/-- The step that a name stands for. -/
def name? (cs : List Char) : Option Step :=
  if !cs.isEmpty && cs.all Step.isNameChar then some (.name (String.ofList cs)) else none

/-- A text without the blanks around it. -/
def strip (cs : List Char) : List Char :=
  let blank (c : Char) : Bool := c == ' ' || c == '\t'
  ((cs.dropWhile blank).reverse.dropWhile blank).reverse

/-- The step that a place stands for: a whole number of 64 bits with sign. -/
def number? (cs : List Char) : Option Step :=
  let (negative, ds) :=
    match cs with
    | '-' :: ds => (true, ds)
    | ds => (false, ds)
  if ds.isEmpty || !ds.all Char.isDigit then none
  else
    let n : Int := Nat.ofDigitChars 10 ds 0
    let i := if negative then -n else n
    if Int64.minValue.toInt ≤ i ∧ i ≤ Int64.maxValue.toInt then some (.place i) else none

/-- The step that a place behind its opening bracket stands for. -/
def place? (cs : List Char) : Option Step :=
  match cs.reverse with
  | ']' :: reversed => number? (strip reversed.reverse)
  | _ => none

/-- The steps that a name and the places behind it stand for. -/
def part? (cs : List Char) : Option Path :=
  match cs.splitOn '[' with
  | [] => none
  | name :: places => do return (← name? name) :: (← places.mapM place?)

/-- The path that a key stands for.  A key that is not made of names and places is one name. -/
def ofKey (key : String) : Path :=
  match (key.toList.splitOn '.').mapM part? with
  | some parts => parts.flatten
  | none => [.name key]

end Path

end Amqp.Settings
