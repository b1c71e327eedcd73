import Amqp.Fault

/-!
# Fields of composite values

A composite travels as a list described by a number.  `composite` writes the list, leaving out null
fields at its end; a `false` flag is written as null too.  `Fields` reads the fields one after
another: fields that are missing at the end read as null, and fields beyond the known ones are
ignored.
-/

namespace Amqp

/-! ## Writing -/

/-- The fields without the nulls at the end. -/
def trimNulls (fields : List Value) : List Value :=
  (fields.reverse.dropWhile Value.isNull).reverse

/-- A composite value. -/
def composite (code : UInt64) (fields : List Value) : Value :=
  .describedBy code (.list (trimNulls fields))

namespace Value

/-- An optional field. -/
def ofOption {α : Type} (toValue : α → Value) : Option α → Value
  | some a => toValue a
  | none => null

/-- A flag, which is null when it is off. -/
def ofFlag (on : Bool) : Value := if on then bool true else null

end Value

/-! ## Reading -/

/-- A reader of the fields of the composite with a given name. -/
abbrev Fields (α : Type) := ReaderT String (StateT (List Value) (Except Fault)) α

namespace Fields

/-- Reads the next field; `accept` takes its content, or gives back the value that does not belong
there. -/
def optional {α : Type} (field : String) (accept : Value → Except Value α) : Fields (Option α) :=
  fun composite items =>
    match items.headD .null with
    | .null => .ok (none, items.tail)
    | v =>
      match accept v with
      | .ok a => .ok (some a, items.tail)
      | .error found => .error (.malformed (.unexpectedField composite field found))

/-- Reads the next field, which must not be null. -/
def required {α : Type} (field : String) (accept : Value → Except Value α) : Fields α :=
  fun composite items => do
    match ← optional field accept composite items with
    | (some a, rest) => return (a, rest)
    | (none, _) => throw (.malformed (.missingField composite field))

/-- Reads the next field, which is a composite of its own. -/
def nested {α : Type} (ofValue : Value → Except Fault α) : Fields (Option α) := fun _ items =>
  match items.headD .null with
  | .null => .ok (none, items.tail)
  | v =>
    match ofValue v with
    | .ok a => .ok (some a, items.tail)
    | .error f => .error f

/-- Gives up with a fault. -/
def fail {α : Type} (f : Fault) : Fields α := fun _ _ => .error f

/-! ### Contents -/

/-- The content of a `ubyte`. -/
def ubyte : Value → Except Value UInt8
  | .ubyte v => .ok v
  | v => .error v

/-- The content of a `ushort`. -/
def ushort : Value → Except Value UInt16
  | .ushort v => .ok v
  | v => .error v

/-- The content of a `uint`. -/
def uint : Value → Except Value UInt32
  | .uint v => .ok v
  | v => .error v

/-- The content of a `ulong`. -/
def ulong : Value → Except Value UInt64
  | .ulong v => .ok v
  | v => .error v

/-- The content of a boolean. -/
def bool : Value → Except Value Bool
  | .bool v => .ok v
  | v => .error v

/-- The content of a string or a symbol. -/
def text : Value → Except Value String
  | .string v => .ok v
  | .symbol v => .ok v
  | v => .error v

/-- The content of a map. -/
def map : Value → Except Value Entries
  | .map entries => .ok entries
  | v => .error v

/-- The content of a binary value. -/
def binary : Value → Except Value Bytes
  | .binary v => .ok v
  | v => .error v

/-- Any value. -/
def any (v : Value) : Except Value Value := .ok v

/-- The names in an array of symbols, after reversed names. -/
def symbolNamesOnto : List Value → List String → Except Value (List String)
  | [], reversed => .ok reversed.reverse
  | .symbol v :: items, reversed => symbolNamesOnto items (v :: reversed)
  | v :: _, _ => .error v

/-- The names in a field that holds several symbols: an array of them, or one alone. -/
def symbols : Value → Except Value (List String)
  | .symbol v => .ok [v]
  | .array items => symbolNamesOnto items []
  | v => .error v

/-- Reads a flag, which is off by default. -/
def flag (field : String) : Fields Bool := do
  return (← optional field bool).getD false

end Fields

/-- Reads a composite with the given name and code. -/
def readComposite {α : Type} (name : String) (code : UInt64) (read : Fields α) (v : Value) :
    Except Fault α :=
  match v with
  | .described (.ulong found) body =>
    if found ≠ code then throw (.malformed (.wrongDescriptor name code found))
    else
      match body with
      | .list items => return (← read name items).1
      | other => throw (.malformed (.bodyNotList name other))
  | .described other _ => throw (.malformed (.unexpectedDescriptor name other))
  | other => throw (.malformed (.notDescribed name other))

end Amqp
