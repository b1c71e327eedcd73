/-!
# Shortest decimals

A binary floating-point number is written with the fewest decimal digits that read back as the same
number, and of those with the digits nearest to it.  `Binary` describes a format (`binary32`,
`binary64`), `Binary.classify` takes a bit pattern apart, and `shortest` finds the digits: on the
decimal grids of one digit, two digits and so on it tests the two grid points around the value, and
takes the first grid with a point in the interval of reals that round to the value.
-/

namespace Amqp.Decimal

/-- A binary interchange format. -/
structure Binary where
  fractionBits : Nat
  exponentBits : Nat

/-- Single precision. -/
def binary32 : Binary := ⟨23, 8⟩

/-- Double precision. -/
def binary64 : Binary := ⟨52, 11⟩

/-- A floating-point number; `finite` stands for `±mantissa · 2 ^ exponent`, and `tight` marks the
values whose lower neighbour is half as far away as the upper one. -/
inductive Class where
  | nan
  | infinite (negative : Bool)
  | finite (negative : Bool) (mantissa : Nat) (exponent : Int) (tight : Bool)
deriving DecidableEq, Repr

/-- The number with a given bit pattern. -/
def Binary.classify (f : Binary) (bits : Nat) : Class :=
  let unit := Nat.pow 2 f.fractionBits
  let exponents := Nat.pow 2 f.exponentBits
  let fraction := bits % unit
  let biased := bits / unit % exponents
  let negative := bits / unit / exponents % 2 = 1
  let bias : Int := exponents / 2 - 1
  if biased = exponents - 1 then
    if fraction = 0 then .infinite negative else .nan
  else if biased = 0 then .finite negative fraction (1 - bias - f.fractionBits) false
  else
    .finite negative (unit + fraction) (biased - bias - f.fractionBits)
      (fraction = 0 ∧ 1 < biased)

/-- Digits and the power of ten of the first of them: `d₀.d₁d₂… · 10 ^ exponent`. -/
structure Digits where
  digits : List Char
  exponent : Int
deriving DecidableEq, Repr

/-- A nonnegative fraction. -/
structure Ratio where
  num : Nat
  den : Nat

/-- The fraction `m · 2 ^ q · 10 ^ (-p)`. -/
def Ratio.scaled (m : Nat) (q p : Int) : Ratio :=
  ⟨m * Nat.pow 2 q.toNat * Nat.pow 10 (-p).toNat, Nat.pow 2 (-q).toNat * Nat.pow 10 p.toNat⟩

/-- The power of ten just below the value, searched downwards from `high`. -/
def leadingPower (m : Nat) (q : Int) : (steps : Nat) → (high : Int) → Int
  | 0, high => high
  | steps + 1, high =>
    let r := Ratio.scaled m q high
    if r.den ≤ r.num then high else leadingPower m q steps (high - 1)

/-- The grid point for `4 · m · 2 ^ (q - 2)` on the grid of multiples of `10 ^ p` that rounds to
the value, the nearer one when both neighbours do, the upper one on a tie. -/
def gridPoint? (m : Nat) (q p : Int) (tight : Bool) : Option Nat :=
  let value := Ratio.scaled (4 * m) (q - 2) p
  let low := (Ratio.scaled (4 * m - if tight then 1 else 2) (q - 2) p).num
  let high := (Ratio.scaled (4 * m + 2) (q - 2) p).num
  let inside := fun c =>
    let point := c * value.den
    if m % 2 = 0 then low ≤ point && point ≤ high else low < point && point < high
  let c := value.num / value.den
  let past := value.num - c * value.den
  let short := (c + 1) * value.den - value.num
  let first := if past < short then c else c + 1
  let second := if first = c then c + 1 else c
  if inside first then some first else if inside second then some second else none

/-- The digits on the first grid that has a point, from `count` digits up. -/
def digitsFrom (m : Nat) (q power : Int) (tight : Bool) : (steps count : Nat) → Nat × Int
  | 0, count => (0, power - count + 1)
  | steps + 1, count =>
    let p := power - count + 1
    match gridPoint? m q p tight with
    | some c => (c, p)
    | none => digitsFrom m q power tight steps (count + 1)

/-- The shortest digits of a positive number. -/
def shortest (m : Nat) (q : Int) (tight : Bool) : Digits :=
  let power := leadingPower m q 800 400
  let (c, p) := digitsFrom m q power tight 20 1
  let digits := Nat.toDigits 10 c
  let trimmed := (digits.reverse.dropWhile (· == '0')).reverse
  ⟨trimmed, p + digits.length - 1⟩

/-- Digits in positional notation, with at least `places` places after the point. -/
def Digits.positional (d : Digits) (places : Nat) : String :=
  let whole := (d.exponent + 1).toNat
  let lead := (-(d.exponent + 1)).toNat
  let front := (d.digits ++ List.replicate (whole - d.digits.length) '0').take whole
  let back := List.replicate lead '0' ++ d.digits.drop whole
  let back := back ++ List.replicate (places - back.length) '0'
  String.ofList (if front.isEmpty then ['0'] else front) ++
    if back.isEmpty then "" else "." ++ String.ofList back

/-- Digits with an exponent behind `e`. -/
def Digits.scientific (d : Digits) : String :=
  let back := d.digits.drop 1
  String.ofList (d.digits.take 1) ++ (if back.isEmpty then "" else "." ++ String.ofList back) ++
    "e" ++ toString d.exponent

/-- A number as messages show it: positional from `1e-4` up to `1e16`, with at least one place
after the point, and with an exponent elsewhere. -/
def Class.text : Class → String
  | .nan => "NaN"
  | .infinite negative => if negative then "-inf" else "inf"
  | .finite negative m q tight =>
    (if negative then "-" else "") ++
      if m = 0 then "0.0"
      else
        let d := shortest m q tight
        if -4 ≤ d.exponent ∧ d.exponent < 16 then d.positional 1 else d.scientific

/-- A number in positional notation, without a point when it is whole. -/
def Class.plain : Class → String
  | .nan => "NaN"
  | .infinite negative => if negative then "-inf" else "inf"
  | .finite negative m q tight =>
    (if negative then "-" else "") ++
      if m = 0 then "0" else (shortest m q tight).positional 0

end Amqp.Decimal
