import Amqp.Bytes
import Amqp.Text.Printable

/-!
# Numbers and quoted text in messages

Numbers appear in messages in decimal, or in lower-case hexadecimal behind `0x`.  Texts, characters
and octets appear between quotes, with a backslash before the quote and the backslash itself and
short escapes for line breaks, tabs and the zero character.  Other characters of a text that are not
printable are written as their code point; octets outside printable ASCII as two hexadecimal digits.
-/

namespace Amqp.Text

/-! ## Numbers -/

/-- Lower-case hexadecimal digits, at least `width` of them. -/
def hexDigits (width n : Nat) : String :=
  let digits := Nat.toDigits 16 n
  String.ofList (List.replicate (width - digits.length) '0' ++ digits)

/-- A number in hexadecimal behind `0x`. -/
def hex (n : Nat) : String := "0x" ++ hexDigits 1 n

/-- An octet as two hexadecimal digits behind `0x`. -/
def hexByte (b : UInt8) : String := "0x" ++ hexDigits 2 b.toNat

/-- Items between brackets, separated by commas. -/
def bracketed (items : List String) : String := "[" ++ String.intercalate ", " items ++ "]"

/-! ## Quoted text -/

/-- The short escape of a character, if it has one. -/
def shortEscape? : Char → Option String
  | '\x00' => some "\\0"
  | '\t' => some "\\t"
  | '\n' => some "\\n"
  | '\r' => some "\\r"
  | '\\' => some "\\\\"
  | _ => none

/-- A character as it stands between quotes of the given kind. -/
def escapeChar (quote c : Char) : String :=
  if c = quote then "\\" ++ String.singleton c
  else
    match shortEscape? c with
    | some e => e
    | none =>
      if isPrintable c then String.singleton c else "\\u\x7b" ++ hexDigits 1 c.toNat ++ "\x7d"

/-- A text between double quotes. -/
def quoted (s : String) : String :=
  "\"" ++ String.join (s.toList.map (escapeChar '"')) ++ "\""

/-- A character between single quotes. -/
def quotedChar (c : Char) : String := "'" ++ escapeChar '\'' c ++ "'"

/-- An octet as it stands between the quotes of a byte string. -/
def escapeByte (b : UInt8) : String :=
  if b = 0x22 then "\\\""
  else
    match shortEscape? (Char.ofUInt8 b) with
    | some e => e
    | none =>
      if 0x20 ≤ b ∧ b < 0x7F then String.singleton (Char.ofUInt8 b)
      else "\\x" ++ hexDigits 2 b.toNat

/-- A byte string between double quotes, marked with a leading `b`. -/
def quotedBytes (b : Bytes) : String := "b\"" ++ String.join (b.map escapeByte) ++ "\""

end Amqp.Text
