import Amqp.Value.Decoding

/-!
# Reading with operations that can panic

The operations that take octets off a buffer panic if there are too few, and whoever preallocates
memory names the number of elements that it is for.  An `Attempt` has such operations: it gives a
result, or it is refused by a check, or it panics, and it records what it asks for.  The readers
here check what they are about to read and then read it, and the checks stand apart from the
operations that they guard.

`Attempt.valueAt` reads a value.  Its depth is a bound on the nesting; running out of it is a mishap
of its own, so that no depth hides what the reader does.
-/

namespace Amqp

/-- How an attempt fails: a check refuses what is read, an operation panics, or the nesting is
deeper than foreseen. -/
inductive Mishap where
  | refused (f : Fault)
  | panicked
  | exhausted

/-- What an attempt leaves: the numbers of elements that memory was asked for, in order, and the
result. -/
structure Attempted (σ α : Type) where
  requests : List Nat := []
  result : Except Mishap (α × σ)

/-- A computation that can panic. -/
def Attempt (σ α : Type) := σ → Attempted σ α

namespace Attempt

variable {σ τ α β : Type}

/-- Goes on after an attempt that has succeeded. -/
protected def bind (x : Attempt σ α) (f : α → Attempt σ β) : Attempt σ β := fun s =>
  let first := x s
  match first.result with
  | .error m => { requests := first.requests, result := .error m }
  | .ok (a, s') =>
    let second := f a s'
    { requests := first.requests ++ second.requests, result := second.result }

instance : Monad (Attempt σ) where
  pure a := fun s => { result := .ok (a, s) }
  bind := Attempt.bind

/-! ## Operations -/

/-- Gives up because of a check. -/
def refuse (f : Fault) : Attempt σ α := fun _ => { result := .error (.refused f) }

/-- Preallocates memory for a number of elements. -/
def reserve (count : Nat) : Attempt σ Unit := fun s =>
  { requests := [count], result := .ok ((), s) }

/-- What there is to read. -/
def current : Attempt σ σ := fun s => { result := .ok (s, s) }

/-- Reads from something else, and leaves the rest of that alone. -/
def apart (t : τ) (x : Attempt τ α) : Attempt σ α := fun s =>
  let inner := x t
  { requests := inner.requests, result := inner.result.map fun (a, _) => (a, s) }

/-- Cuts off octets.  Panics if there are fewer. -/
def splitTo (n : Nat) : Attempt Bytes Bytes := fun b =>
  { result := if b.length < n then .error .panicked else .ok (b.take n, b.drop n) }

/-- Takes off a number of `n` octets.  Panics if there are fewer. -/
def getWord (n : Nat) : Attempt Bytes Nat := fun b =>
  { result := if b.length < n then .error .panicked else .ok (Word.decode (b.take n), b.drop n) }

/-! ## Checks -/

/-- Checks that there are octets enough for what a fault calls `what`. -/
def ensure (what : String) (n : Nat) : Attempt Bytes Unit := do
  let b ← current
  if b.length < n then refuse (.malformed (.truncated what n b.length))

/-- Refuses a count above the limit. -/
def checkCount (what : String) (count limit : Nat) : Attempt Bytes Unit :=
  if limit < count then refuse (.malformed (.tooManyElements what count limit)) else pure ()

/-! ## Readers -/

/-- Reads a number of `n` octets. -/
def word (what : String) (n : Nat) : Attempt Bytes Nat := do
  ensure what n
  getWord n

/-- Reads octets. -/
def slice (what : String) (n : Nat) : Attempt Bytes Bytes := do
  ensure what n
  splitTo n

/-- Reads one octet. -/
def octet : Attempt Bytes UInt8 := do
  return UInt8.ofNat (← word "u8" 1)

/-- Reads a length or a size. -/
def length : Width → Attempt Bytes Nat
  | .narrow => word "u8" 1
  | .wide => word "u32" 4

/-- Reads octets behind their length. -/
def variableContent (what : String) (width : Width) : Attempt Bytes Bytes := do
  let n ← length width
  slice what n

/-- Reads text behind its length. -/
def textContent (what : String) (width : Width) : Attempt Bytes String := do
  let content ← variableContent what width
  match Utf8.decode? content with
  | some s => return s
  | none => refuse (.malformed (.invalidUtf8 ((Utf8.fault? content).getD ⟨0, none⟩)))

/-- Takes the count off the front of the content of a compound value. -/
def countAndRest (width : Width) : Attempt Bytes (Nat × Bytes) := do
  let count ← getWord width.octets
  return (count, ← current)

/-- Reads size, count and content of a compound value. -/
def compoundContent (what : String) (width : Width) : Attempt Bytes (Nat × Bytes) := do
  let size ← length width
  if size < width.octets then refuse (.malformed (.sizeBelowCount what size))
  else
    let content ← slice what size
    apart content (countAndRest width)

/-- Reads `n` items in a row and pushes them onto reversed items. -/
def repeatOnto (item : Attempt Bytes α) : (n : Nat) → (reversed : List α) → Attempt Bytes (List α)
  | 0, reversed => pure reversed.reverse
  | n + 1, reversed => do
    let x ← item
    repeatOnto item n (x :: reversed)

/-- Reads `n` items in a row, for which memory is preallocated. -/
def times (n : Nat) (item : Attempt Bytes α) : Attempt Bytes (List α) := do
  reserve n
  repeatOnto item n []

/-- Reads the content of a list. -/
def listContent (value : Attempt Bytes Value) (width : Width) : Attempt Bytes Value := do
  let (count, content) ← compoundContent "list" width
  checkCount "list" count content.length
  return .list (← apart content (times count value))

/-- Reads a key and a value. -/
def entry (value : Attempt Bytes Value) : Attempt Bytes (Value × Value) := do
  let k ← value
  let v ← value
  return (k, v)

/-- Reads the content of a map. -/
def mapContent (value : Attempt Bytes Value) (width : Width) : Attempt Bytes Value := do
  let (count, content) ← compoundContent "map" width
  checkCount "map" count content.length
  if count % 2 ≠ 0 then refuse (.malformed (.oddMap count))
  else return .map (← apart content (times (count / 2) (entry value)))

/-- Reads the constructor that array elements share, and the descriptor in front of it if there is
one. -/
def elementHead (value : Attempt Bytes Value) : Attempt Bytes (Option Value × UInt8) := do
  let code ← octet
  if code = Constructor.described then
    let descriptor ← value
    let code ← octet
    return (some descriptor, code)
  else return (none, code)

/-- Reads the elements of an array from its content. -/
def elements (value : Attempt Bytes Value) (element : UInt8 → Attempt Bytes Value) (count : Nat) :
    Attempt Bytes (List Value) := do
  let (descriptor, code) ← elementHead value
  checkCount "array" count (Value.elementLimit code (← current))
  let items ← times count (element code)
  match descriptor with
  | some d => return items.map (.described d)
  | none => return items

/-- Reads the content of an array. -/
def arrayContent (value : Attempt Bytes Value) (element : UInt8 → Attempt Bytes Value)
    (width : Width) : Attempt Bytes Value := do
  let (count, content) ← compoundContent "array" width
  return .array (← apart content (elements value element count))

/-- Reads a character. -/
def charContent : Attempt Bytes Value := do
  let code ← word "u32" 4
  if h : code.isValidChar then return .char (Char.ofNatAux code h)
  else refuse (.malformed (.invalidChar code))

/-- Reads what stands behind a constructor, given readers for values and for what stands behind
other constructors. -/
def contentOf (value : Attempt Bytes Value) (element : UInt8 → Attempt Bytes Value) :
    Constructor → Attempt Bytes Value
  | .null => return .null
  | .boolTrue => return .bool true
  | .boolFalse => return .bool false
  | .uintZero => return .uint 0
  | .ulongZero => return .ulong 0
  | .emptyList => return .list []
  | .boolean => return .bool ((← octet) != 0)
  | .ubyte => return .ubyte (← octet)
  | .smallUint => return .uint (← octet).toUInt32
  | .smallUlong => return .ulong (← octet).toUInt64
  | .byte => return .byte (UInt8.ofNat (← word "byte" 1)).toInt8
  | .smallInt => return .int (UInt8.ofNat (← word "smallint" 1)).toInt8.toInt32
  | .smallLong => return .long (UInt8.ofNat (← word "smalllong" 1)).toInt8.toInt64
  | .ushort => return .ushort (UInt16.ofNat (← word "ushort" 2))
  | .short => return .short (UInt16.ofNat (← word "short" 2)).toInt16
  | .uint => return .uint (UInt32.ofNat (← word "u32" 4))
  | .int => return .int (UInt32.ofNat (← word "int" 4)).toInt32
  | .float => return .float (UInt32.ofNat (← word "float" 4))
  | .char => charContent
  | .ulong => return .ulong (UInt64.ofNat (← word "ulong" 8))
  | .long => return .long (UInt64.ofNat (← word "long" 8)).toInt64
  | .double => return .double (UInt64.ofNat (← word "double" 8))
  | .timestamp => return .timestamp (UInt64.ofNat (← word "timestamp" 8)).toInt64
  | .uuid => do
    let content ← slice "uuid" 16
    return .uuid (UInt64.ofNat (Word.decode (content.take 8)))
      (UInt64.ofNat (Word.decode (content.drop 8)))
  | .binary .narrow => return .binary (← variableContent "vbin8" .narrow)
  | .binary .wide => return .binary (← variableContent "vbin32" .wide)
  | .string .narrow => return .string (← textContent "str8" .narrow)
  | .string .wide => return .string (← textContent "str32" .wide)
  | .symbol .narrow => return .symbol (← textContent "sym8" .narrow)
  | .symbol .wide => return .symbol (← textContent "sym32" .wide)
  | .list width => listContent value width
  | .map width => mapContent value width
  | .array width => arrayContent value element width

/-- Reads what stands behind the constructor with a given octet. -/
def contentWith (value : Attempt Bytes Value) (element : UInt8 → Attempt Bytes Value)
    (code : UInt8) : Attempt Bytes Value :=
  match Constructor.ofCode? code with
  | some c => contentOf value element c
  | none => refuse (.malformed (.unsupportedConstructor code))

/-- Fails because the nesting is deeper than foreseen. -/
def exhausted : Attempt σ α := fun _ => { result := .error .exhausted }

mutual

/-- Reads a value nested at most `depth` levels deep. -/
def valueAt : (depth : Nat) → Attempt Bytes Value
  | 0 => exhausted
  | depth + 1 => do
    let code ← octet
    if code = Constructor.described then
      let descriptor ← valueAt depth
      let value ← valueAt depth
      return .described descriptor value
    else contentAt depth code

/-- Reads what stands behind a constructor, nested at most `depth` levels deep. -/
def contentAt : (depth : Nat) → UInt8 → Attempt Bytes Value
  | 0 => fun _ => exhausted
  | depth + 1 => contentWith (valueAt depth) (contentAt depth)

end

end Attempt

end Amqp
