import Amqp.Fault
import Amqp.Value.Constructor

/-!
# Decoding of values

`Value.decode` reads one value from the front of some octets and returns it with the octets that
follow.  It accepts every width of every constructor.  The size of a compound value delimits its
content, which the announced number of items need not use up.

Announced element counts are held against the octets that are left (`limitCount`), so that a few
octets cannot announce a huge value; array elements without any octets of their own are held
against `maxEmptyElements` instead.

The recursion is bounded by `depth`.  Every nested value starts at least one octet further on, so
the number of octets to read is depth enough, and `decode` starts with it.
-/

namespace Amqp.Value

/-- A reader of octets: its result and the octets it leaves, or what is wrong with them. -/
abbrev Decoder (α : Type) := StateT Bytes (Except Malformation) α

namespace Decoder

/-- Fails. -/
def fail {α : Type} (m : Malformation) : Decoder α := fun _ => .error m

/-- Reads `n` octets of what the fault calls `what`. -/
def octets (what : String) (n : Nat) : Decoder Bytes := fun b =>
  match Bytes.split? b n with
  | some r => .ok r
  | none => .error (.truncated what n b.length)

/-- Reads a number of `n` octets. -/
def word (what : String) (n : Nat) : Decoder Nat := do
  return Word.decode (← octets what n)

/-- Reads one octet. -/
def octet : Decoder UInt8 := do
  return UInt8.ofNat (← word "u8" 1)

/-- Reads a length or a size. -/
def length : Width → Decoder Nat
  | .narrow => word "u8" 1
  | .wide => word "u32" 4

/-- Reads `n` items in a row and pushes them onto reversed items. -/
def repeatOnto {α : Type} (item : Decoder α) : (n : Nat) → (reversed : List α) → Decoder (List α)
  | 0, reversed => fun b => .ok (reversed.reverse, b)
  | n + 1, reversed => fun b =>
    match item b with
    | .ok (x, rest) => repeatOnto item n (x :: reversed) rest
    | .error m => .error m

/-- Reads `n` items in a row. -/
def times {α : Type} (n : Nat) (item : Decoder α) : Decoder (List α) := repeatOnto item n []

/-- Reads something from the front of given octets, whatever follows it there. -/
def within {α : Type} (content : Bytes) (inner : Decoder α) : Decoder α := fun b =>
  match inner content with
  | .ok (x, _) => .ok (x, b)
  | .error m => .error m

end Decoder

open Decoder

/-! ## Variable and compound contents -/

/-- Reads octets behind their length. -/
def variableContent (what : String) (width : Width) : Decoder Bytes := do
  let n ← length width
  octets what n

/-- Reads text behind its length. -/
def textContent (what : String) (width : Width) : Decoder String := do
  let content ← variableContent what width
  match Utf8.decode? content with
  | some s => return s
  | none => fail (.invalidUtf8 ((Utf8.fault? content).getD ⟨0, none⟩))

/-- Reads size, count and content of a compound value. -/
def compoundContent (what : String) (width : Width) : Decoder (Nat × Bytes) := do
  let size ← length width
  if size < width.octets then fail (.sizeBelowCount what size)
  else
    let content ← octets what size
    return (Word.decode (content.take width.octets), content.drop width.octets)

/-- The most array elements without octets of their own. -/
def maxEmptyElements : Nat := 65536

/-- Refuses a count above the limit. -/
def limitCount (what : String) (count limit : Nat) : Decoder Unit :=
  if limit < count then fail (.tooManyElements what count limit) else pure ()

/-- Reads the content of a list. -/
def listContent (value : Decoder Value) (width : Width) : Decoder Value := do
  let (count, content) ← compoundContent "list" width
  limitCount "list" count content.length
  return list (← within content (times count value))

/-- Reads a key and a value. -/
def entry (value : Decoder Value) : Decoder (Value × Value) := do
  let k ← value
  let v ← value
  return (k, v)

/-- Reads the content of a map. -/
def mapContent (value : Decoder Value) (width : Width) : Decoder Value := do
  let (count, content) ← compoundContent "map" width
  limitCount "map" count content.length
  if count % 2 ≠ 0 then fail (.oddMap count)
  else return map (← within content (times (count / 2) (entry value)))

/-- Reads the constructor that array elements share, and the descriptor in front of it if there is
one. -/
def elementHead (value : Decoder Value) : Decoder (Option Value × UInt8) := do
  let code ← octet
  if code = Constructor.described then
    let descriptor ← value
    let code ← octet
    return (some descriptor, code)
  else return (none, code)

/-- How many array elements with a given constructor the rest of the content can hold. -/
def elementLimit (code : UInt8) (content : Bytes) : Nat :=
  if (Constructor.ofCode? code).any Constructor.isBodiless then maxEmptyElements
  else content.length

/-- Reads the elements of an array from its content. -/
def elements (value : Decoder Value) (element : UInt8 → Decoder Value) (count : Nat) :
    Decoder (List Value) := do
  let (descriptor, code) ← elementHead value
  limitCount "array" count (elementLimit code (← get))
  let items ← times count (element code)
  match descriptor with
  | some d => return items.map (described d)
  | none => return items

/-- Reads the content of an array. -/
def arrayContentOf (value : Decoder Value) (element : UInt8 → Decoder Value) (width : Width) :
    Decoder Value := do
  let (count, content) ← compoundContent "array" width
  return array (← within content (elements value element count))

/-! ## Values -/

/-- Reads a character. -/
def charContent : Decoder Value := do
  let code ← word "u32" 4
  if h : code.isValidChar then return char (Char.ofNatAux code h)
  else fail (.invalidChar code)

/-- Reads what stands behind a constructor, given readers for values and for what stands behind
other constructors. -/
def contentOf (value : Decoder Value) (element : UInt8 → Decoder Value) :
    Constructor → Decoder Value
  | .null => return null
  | .boolTrue => return bool true
  | .boolFalse => return bool false
  | .uintZero => return uint 0
  | .ulongZero => return ulong 0
  | .emptyList => return list []
  | .boolean => return bool ((← octet) != 0)
  | .ubyte => return ubyte (← octet)
  | .smallUint => return uint (← octet).toUInt32
  | .smallUlong => return ulong (← octet).toUInt64
  | .byte => return byte (UInt8.ofNat (← word "byte" 1)).toInt8
  | .smallInt => return int (UInt8.ofNat (← word "smallint" 1)).toInt8.toInt32
  | .smallLong => return long (UInt8.ofNat (← word "smalllong" 1)).toInt8.toInt64
  | .ushort => return ushort (UInt16.ofNat (← word "ushort" 2))
  | .short => return short (UInt16.ofNat (← word "short" 2)).toInt16
  | .uint => return uint (UInt32.ofNat (← word "u32" 4))
  | .int => return int (UInt32.ofNat (← word "int" 4)).toInt32
  | .float => return float (UInt32.ofNat (← word "float" 4))
  | .char => charContent
  | .ulong => return ulong (UInt64.ofNat (← word "ulong" 8))
  | .long => return long (UInt64.ofNat (← word "long" 8)).toInt64
  | .double => return double (UInt64.ofNat (← word "double" 8))
  | .timestamp => return timestamp (UInt64.ofNat (← word "timestamp" 8)).toInt64
  | .uuid => do
    let content ← octets "uuid" 16
    return uuid (UInt64.ofNat (Word.decode (content.take 8)))
      (UInt64.ofNat (Word.decode (content.drop 8)))
  | .binary .narrow => return binary (← variableContent "vbin8" .narrow)
  | .binary .wide => return binary (← variableContent "vbin32" .wide)
  | .string .narrow => return string (← textContent "str8" .narrow)
  | .string .wide => return string (← textContent "str32" .wide)
  | .symbol .narrow => return symbol (← textContent "sym8" .narrow)
  | .symbol .wide => return symbol (← textContent "sym32" .wide)
  | .list width => listContent value width
  | .map width => mapContent value width
  | .array width => arrayContentOf value element width

/-- Reads what stands behind the constructor with a given octet. -/
def contentWith (value : Decoder Value) (element : UInt8 → Decoder Value) (code : UInt8) :
    Decoder Value :=
  match Constructor.ofCode? code with
  | some c => contentOf value element c
  | none => fail (.unsupportedConstructor code)

/-- Reads a value where no octets can be left. -/
def missing : Decoder Value := fun b => .error (.truncated "u8" 1 b.length)

mutual

/-- Reads a value nested at most `depth` levels deep. -/
def valueAt : (depth : Nat) → Decoder Value
  | 0 => missing
  | depth + 1 => do
    let code ← octet
    if code = Constructor.described then
      let descriptor ← valueAt depth
      let value ← valueAt depth
      return described descriptor value
    else contentAt depth code

/-- Reads what stands behind a constructor, nested at most `depth` levels deep. -/
def contentAt : (depth : Nat) → UInt8 → Decoder Value
  | 0 => contentWith missing fun _ => missing
  | depth + 1 => contentWith (valueAt depth) (contentAt depth)

end

/-- Reads a value from the front of some octets. -/
def decode (b : Bytes) : Except Malformation (Value × Bytes) := valueAt b.length b

end Amqp.Value
