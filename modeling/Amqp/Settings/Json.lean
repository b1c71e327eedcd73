import Amqp.Settings.Tree

/-!
# Settings in JSON

`Tree.ofJson?` reads a JSON document.  It takes exactly one value with blanks around it, at most 127
containers inside one another, and no number beyond the range of a double.  Of equal names in an
object the last one counts.  A whole number that does not fit 64 bits with sign is a float.  Floats
are read by `scaled?`, which rounds at every step, so that the result may be a neighbour of the
double nearest to the number.
-/

namespace Amqp.Settings.Json

/-- A reader that gives back the characters behind what it has read. -/
abbrev Scan (α : Type) := List Char → Option (α × List Char)

/-- The characters behind the blanks. -/
def skipBlanks (cs : List Char) : List Char :=
  cs.dropWhile fun c => c == ' ' || c == '\t' || c == '\n' || c == '\r'

/-! ## Strings -/

/-- The value of a hexadecimal digit. -/
def hexDigit? (c : Char) : Option Nat :=
  if '0' ≤ c ∧ c ≤ '9' then some (c.toNat - 48)
  else if 'a' ≤ c ∧ c ≤ 'f' then some (c.toNat - 87)
  else if 'A' ≤ c ∧ c ≤ 'F' then some (c.toNat - 55)
  else none

/-- A code unit of four hexadecimal digits. -/
def unit? (a b c d : Char) : Option Nat := do
  return (← hexDigit? a) * 4096 + (← hexDigit? b) * 256 + (← hexDigit? c) * 16 + (← hexDigit? d)

/-- The character that a letter stands for behind a backslash. -/
def escaped? : Char → Option Char
  | '"' => some '"'
  | '\\' => some '\\'
  | '/' => some '/'
  | 'b' => some '\x08'
  | 'f' => some '\x0c'
  | 'n' => some '\n'
  | 'r' => some '\r'
  | 't' => some '\t'
  | _ => none

/-- Reads a string behind its opening quote. -/
def stringBody (reversed : List Char) : Scan String
  | '"' :: rest => some (String.ofList reversed.reverse, rest)
  | '\\' :: 'u' :: a :: b :: c :: d :: rest =>
    match unit? a b c d with
    | none => none
    | some high =>
      if 0xD800 ≤ high ∧ high < 0xDC00 then
        match rest with
        | '\\' :: 'u' :: e :: f :: g :: h :: rest =>
          match unit? e f g h with
          | none => none
          | some low =>
            if 0xDC00 ≤ low ∧ low < 0xE000 then
              let code := 0x10000 + (high - 0xD800) * 0x400 + (low - 0xDC00)
              stringBody (Char.ofNat code :: reversed) rest
            else none
        | _ => none
      else if 0xDC00 ≤ high ∧ high < 0xE000 then none
      else stringBody (Char.ofNat high :: reversed) rest
  | '\\' :: c :: rest =>
    match escaped? c with
    | none => none
    | some c => stringBody (c :: reversed) rest
  | c :: rest => if c.toNat < 0x20 then none else stringBody (c :: reversed) rest
  | [] => none

/-! ## Numbers -/

/-- One or more digits. -/
def digits : Scan (List Char) := fun cs =>
  let ds := cs.takeWhile Char.isDigit
  if ds.isEmpty then none else some (ds, cs.dropWhile Char.isDigit)

/-- The digits before the point, without needless zeros. -/
def wholePart : Scan (List Char) := fun cs => do
  let (ds, rest) ← digits cs
  if ds.head? = some '0' ∧ ds.length ≠ 1 then none else some (ds, rest)

/-- The digits behind the point, if there is one. -/
def fraction : Scan (List Char)
  | '.' :: rest => digits rest
  | cs => some ([], cs)

/-- The exponent, if there is one. -/
def exponent : Scan (Option Int)
  | c :: rest =>
    if c == 'e' || c == 'E' then do
      let (negative, rest) :=
        match rest with
        | '-' :: rest => (true, rest)
        | '+' :: rest => (false, rest)
        | rest => (false, rest)
      let (ds, rest) ← digits rest
      let n : Int := Nat.ofDigitChars 10 ds 0
      return (some (if negative then -n else n), rest)
    else some (none, c :: rest)
  | [] => some (none, [])

/-- Lengthens a number by digits for as long as it fits 64 bits, and counts the digits that are left
over. -/
def lengthen (n : Nat) : List Char → Nat × Nat
  | [] => (n, 0)
  | c :: cs =>
    let longer := n * 10 + (c.toNat - 48)
    if longer < UInt64.size then lengthen longer cs else (n, cs.length + 1)

/-- The double nearest to `10 ^ e`, for `e` up to 308. -/
def powerOfTen (e : Nat) : Float := OfScientific.ofScientific 1 false e

/-- The number `n · 10 ^ e` as a double, unless it is infinite.  `n` is rounded and then multiplied
by the power of ten or divided by it.  The division takes two steps if the power is beyond the range
of doubles; what two steps can not reach is zero. -/
def scaled? (n : Nat) (e : Int) : Option Float :=
  let x := (UInt64.ofNat n).toFloat
  if 308 < e then if n = 0 then some 0 else none
  else if 0 ≤ e then
    let y := x * powerOfTen e.toNat
    if y.isInf then none else some y
  else if -308 ≤ e then some (x / powerOfTen e.natAbs)
  else if -616 ≤ e then some (x / powerOfTen 308 / powerOfTen (e.natAbs - 308))
  else some 0

/-- Reads a number.  The digits beyond 64 bits count for its size only. -/
def number : Scan Tree := fun cs => do
  let (negative, cs) :=
    match cs with
    | '-' :: rest => (true, rest)
    | cs => (false, cs)
  let (whole, cs) ← wholePart cs
  let (places, cs) ← fraction cs
  let (power, cs) ← exponent cs
  let (n, beyond) := lengthen 0 whole
  let signed : Int := if negative then -n else n
  if places.isEmpty && power.isNone && beyond == 0 && !(negative && n == 0) &&
      decide (Int64.minValue.toInt ≤ signed ∧ signed ≤ Int64.maxValue.toInt) then
    return (.int signed, cs)
  let (n, unread) := lengthen n places
  let x ← scaled? n (power.getD 0 + beyond - (places.length - unread : Nat))
  return (.float (if negative then -x else x), cs)

/-! ## Values -/

/-- Reads a fixed word. -/
def word (letters : String) (v : Tree) : Scan Tree := fun cs =>
  if letters.toList.isPrefixOf cs then some (v, cs.drop letters.length) else none

mutual

/-- Reads a value.  `depth` bounds the containers inside one another, and `fuel` the steps. -/
def value (depth : Nat) : (fuel : Nat) → Scan Tree
  | 0, _ => none
  | fuel + 1, cs =>
    match skipBlanks cs with
    | '"' :: rest => (stringBody [] rest).map fun (s, rest) => (.text s, rest)
    | '[' :: rest =>
      if depth ≤ 1 then none
      else
        match skipBlanks rest with
        | ']' :: rest => some (.row [], rest)
        | rest => (rowItems (depth - 1) fuel [] rest).map fun (items, rest) => (.row items, rest)
    | '{' :: rest =>
      if depth ≤ 1 then none
      else
        match skipBlanks rest with
        | '}' :: rest => some (.group [], rest)
        | rest =>
          (members (depth - 1) fuel [] rest).map fun (entries, rest) => (.group entries, rest)
    | 'n' :: rest => word "null" .null ('n' :: rest)
    | 't' :: rest => word "true" (.bool true) ('t' :: rest)
    | 'f' :: rest => word "false" (.bool false) ('f' :: rest)
    | cs => number cs

/-- Reads the items of a row up to its end. -/
def rowItems (depth : Nat) : (fuel : Nat) → (reversed : List Tree) → Scan (List Tree)
  | 0, _, _ => none
  | fuel + 1, reversed, cs =>
    match value depth fuel cs with
    | none => none
    | some (item, cs) =>
      match skipBlanks cs with
      | ',' :: rest => rowItems depth fuel (item :: reversed) rest
      | ']' :: rest => some ((item :: reversed).reverse, rest)
      | _ => none

/-- Reads the members of an object up to its end. -/
def members (depth : Nat) : (fuel : Nat) → (read : List (String × Tree)) →
    Scan (List (String × Tree))
  | 0, _, _ => none
  | fuel + 1, read, cs =>
    match skipBlanks cs with
    | '"' :: cs =>
      match stringBody [] cs with
      | none => none
      | some (name, cs) =>
        match skipBlanks cs with
        | ':' :: cs =>
          match value depth fuel cs with
          | none => none
          | some (v, cs) =>
            match skipBlanks cs with
            | ',' :: rest => members depth fuel (Tree.bind name v read) rest
            | '}' :: rest => some (Tree.bind name v read, rest)
            | _ => none
        | _ => none
    | _ => none

end

end Json

/-- The value of a JSON document.  A byte order mark in front of it is skipped. -/
def Tree.ofJson? (document : String) : Option Tree :=
  let cs := document.toList
  let cs :=
    match cs with
    | '\uFEFF' :: rest => rest
    | cs => cs
  match Json.value 128 (2 * cs.length + 2) cs with
  | some (v, rest) => if (Json.skipBlanks rest).isEmpty then some v else none
  | none => none

end Amqp.Settings
