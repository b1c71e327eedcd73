import Amqp.Bytes

/-!
# Values

`Value` is the type system of the wire: fixed-width numbers, text, octets and the compound values
built from them.  Floating-point numbers are kept as their bits and a UUID as its two big-endian
halves, so a value is exactly what travels.  Maps keep the order and the repetitions of their
entries.
-/

namespace Amqp

/-- A value of the wire's type system. -/
inductive Value where
  | null
  | bool (v : Bool)
  | ubyte (v : UInt8)
  | ushort (v : UInt16)
  | uint (v : UInt32)
  | ulong (v : UInt64)
  | byte (v : Int8)
  | short (v : Int16)
  | int (v : Int32)
  | long (v : Int64)
  | float (bits : UInt32)
  | double (bits : UInt64)
  | char (v : Char)
  | timestamp (milliseconds : Int64)
  | uuid (high low : UInt64)
  | binary (v : Bytes)
  | string (v : String)
  | symbol (v : String)
  | list (items : List Value)
  | map (entries : List (Value × Value))
  | array (items : List Value)
  | described (descriptor value : Value)
deriving Inhabited

/-- The entries of a map value. -/
abbrev Entries := List (Value × Value)

namespace Value

/-- Whether the value is null. -/
def isNull : Value → Bool
  | null => true
  | _ => false

/-- The numeric descriptor of a described value. -/
def descriptorCode? : Value → Option UInt64
  | described (ulong code) _ => some code
  | _ => none

/-- A value described by a number. -/
def describedBy (code : UInt64) (v : Value) : Value := described (ulong code) v

/-- An array of symbols. -/
def symbols (names : List String) : Value := array (names.map symbol)

end Value

end Amqp
