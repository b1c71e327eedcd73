import Amqp.Decimal.Shortest
import Amqp.Text.Quoted
import Amqp.Value

/-!
# Values in messages

`Value.text` is the form in which messages show a value: the name of its kind, and its content
between parentheses.
-/

namespace Amqp.Value

/-- A UUID in groups of 8, 4, 4, 4 and 12 hexadecimal digits. -/
def uuidText (high low : UInt64) : String :=
  let digits := (Text.hexDigits 16 high.toNat ++ Text.hexDigits 16 low.toNat).toList
  let group := fun start count => String.ofList ((digits.drop start).take count)
  String.intercalate "-" [group 0 8, group 8 4, group 12 4, group 16 4, group 20 12]

mutual

/-- A value as messages show it. -/
def text : Value → String
  | null => "Null"
  | bool v => if v then "Bool(true)" else "Bool(false)"
  | ubyte v => s!"Ubyte({v.toNat})"
  | ushort v => s!"Ushort({v.toNat})"
  | uint v => s!"Uint({v.toNat})"
  | ulong v => s!"Ulong({v.toNat})"
  | byte v => s!"Byte({v.toInt})"
  | short v => s!"Short({v.toInt})"
  | int v => s!"Int({v.toInt})"
  | long v => s!"Long({v.toInt})"
  | float bits => "Float(" ++ (Decimal.binary32.classify bits.toNat).text ++ ")"
  | double bits => "Double(" ++ (Decimal.binary64.classify bits.toNat).text ++ ")"
  | char v => "Char(" ++ Text.quotedChar v ++ ")"
  | timestamp v => s!"Timestamp({v.toInt})"
  | uuid high low => "Uuid(" ++ uuidText high low ++ ")"
  | binary v => "Binary(" ++ Text.quotedBytes v ++ ")"
  | string v => "String(" ++ Text.quoted v ++ ")"
  | symbol v => "Symbol(" ++ Text.quoted v ++ ")"
  | list items => "List(" ++ Text.bracketed (texts items) ++ ")"
  | map entries => "Map(" ++ Text.bracketed (entryTexts entries) ++ ")"
  | array items => "Array(" ++ Text.bracketed (texts items) ++ ")"
  | described descriptor value => "Described(" ++ text descriptor ++ ", " ++ text value ++ ")"

/-- The texts of the items of a list or an array. -/
def texts : List Value → List String
  | [] => []
  | v :: vs => text v :: texts vs

/-- The texts of the entries of a map. -/
def entryTexts : List (Value × Value) → List String
  | [] => []
  | (k, v) :: entries => ("(" ++ text k ++ ", " ++ text v ++ ")") :: entryTexts entries

end

end Amqp.Value
