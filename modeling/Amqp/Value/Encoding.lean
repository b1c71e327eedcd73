import Amqp.Text.Utf8
import Amqp.Value
import Amqp.Value.Constructor

/-!
# Encoding of values

`Value.encode` writes a value with the most compact constructor that holds it.  The elements of an
array share one constructor, the wide one of the first element (`elementConstructor`), followed by
the bare content of each (`elementBody`).  Lengths and counts take 32 bits; larger ones wrap.

The contents of lists, maps and arrays are gathered in reverse order, so that a long sequence of
items needs no deep recursion; `encodeItems_cons` and its companions state the plain reading, that
the content is the encodings of the items one after another.
-/

namespace Amqp.Value

/-! ## Lengths -/

/-- Octets of variable length behind their length, in the narrow form when that fits. -/
def encodeVariable (type : Width → Constructor) (content : Bytes) : Bytes :=
  let length := content.length
  if length < 256 then (type .narrow).code :: UInt8.ofNat length :: content
  else (type .wide).code :: (Word.encode 4 length ++ content)

/-- The wide form of a compound's size and count, followed by its content. -/
def wideCompound (count : Nat) (content : Bytes) : Bytes :=
  Word.encode 4 (content.length + 4) ++ (Word.encode 4 count ++ content)

/-- A compound value.  Its size covers the count field and the content, so the narrow form holds at
most 254 octets of content. -/
def encodeCompound (type : Width → Constructor) (count : Nat) (content : Bytes) : Bytes :=
  let length := content.length
  if length < 255 ∧ count < 256 then
    (type .narrow).code :: UInt8.ofNat (length + 1) :: UInt8.ofNat count :: content
  else (type .wide).code :: wideCompound count content

/-- Whether a number fits a signed octet. -/
def fitsByte (n : Int) : Bool := -128 ≤ n && n < 128

/-! ## Values -/

mutual

/-- The octets of a value. -/
def encode : Value → Bytes
  | null => [Constructor.null.code]
  | bool v => [if v then Constructor.boolTrue.code else Constructor.boolFalse.code]
  | ubyte v => [Constructor.ubyte.code, v]
  | ushort v => Constructor.ushort.code :: Word.encode 2 v.toNat
  | uint v =>
    if v = 0 then [Constructor.uintZero.code]
    else if v < 256 then [Constructor.smallUint.code, v.toUInt8]
    else Constructor.uint.code :: Word.encode 4 v.toNat
  | ulong v =>
    if v = 0 then [Constructor.ulongZero.code]
    else if v < 256 then [Constructor.smallUlong.code, v.toUInt8]
    else Constructor.ulong.code :: Word.encode 8 v.toNat
  | byte v => [Constructor.byte.code, v.toUInt8]
  | short v => Constructor.short.code :: Word.encode 2 v.toUInt16.toNat
  | int v =>
    if fitsByte v.toInt then [Constructor.smallInt.code, v.toInt8.toUInt8]
    else Constructor.int.code :: Word.encode 4 v.toUInt32.toNat
  | long v =>
    if fitsByte v.toInt then [Constructor.smallLong.code, v.toInt8.toUInt8]
    else Constructor.long.code :: Word.encode 8 v.toUInt64.toNat
  | float bits => Constructor.float.code :: Word.encode 4 bits.toNat
  | double bits => Constructor.double.code :: Word.encode 8 bits.toNat
  | char v => Constructor.char.code :: Word.encode 4 v.toNat
  | timestamp v => Constructor.timestamp.code :: Word.encode 8 v.toUInt64.toNat
  | uuid high low => Constructor.uuid.code :: (Word.encode 8 high.toNat ++ Word.encode 8 low.toNat)
  | binary v => encodeVariable .binary v
  | string v => encodeVariable .string (Utf8.encode v)
  | symbol v => encodeVariable .symbol (Utf8.encode v)
  | list items =>
    if items.isEmpty then [Constructor.emptyList.code]
    else
      encodeCompound .list items.length
        (encodeItemsOnto items []).reverse
  | map entries =>
    encodeCompound .map (entries.length * 2)
      (encodeEntriesOnto entries []).reverse
  | array items =>
    encodeCompound .array items.length (arrayContent items)
  | described descriptor value => Constructor.described :: (descriptor.encode ++ value.encode)
termination_by structural v => v

/-- The encodings of items, pushed onto reversed octets. -/
def encodeItemsOnto : List Value → Bytes → Bytes
  | [], reversed => reversed
  | item :: items, reversed => encodeItemsOnto items (item.encode.reverseAux reversed)

/-- The encodings of keys and values in turn, pushed onto reversed octets. -/
def encodeEntriesOnto : List (Value × Value) → Bytes → Bytes
  | [], reversed => reversed
  | (key, value) :: entries, reversed =>
    encodeEntriesOnto entries (value.encode.reverseAux (key.encode.reverseAux reversed))

/-- The content of an array: the constructor of its elements and their bodies; a null constructor
alone when there are none. -/
def arrayContent : List Value → Bytes
  | [] => [Constructor.null.code]
  | item :: items =>
    elementConstructor item ++
      (elementBodiesOnto items ((elementBody item).reverseAux [])).reverse

/-- The constructor that the elements of an array share, taken from the first of them: always the
wide one, behind the descriptor when the element is described. -/
def elementConstructor : Value → Bytes
  | null => [Constructor.null.code]
  | bool _ => [Constructor.boolean.code]
  | ubyte _ => [Constructor.ubyte.code]
  | ushort _ => [Constructor.ushort.code]
  | uint _ => [Constructor.uint.code]
  | ulong _ => [Constructor.ulong.code]
  | byte _ => [Constructor.byte.code]
  | short _ => [Constructor.short.code]
  | int _ => [Constructor.int.code]
  | long _ => [Constructor.long.code]
  | float _ => [Constructor.float.code]
  | double _ => [Constructor.double.code]
  | char _ => [Constructor.char.code]
  | timestamp _ => [Constructor.timestamp.code]
  | uuid _ _ => [Constructor.uuid.code]
  | binary _ => [(Constructor.binary .wide).code]
  | string _ => [(Constructor.string .wide).code]
  | symbol _ => [(Constructor.symbol .wide).code]
  | list _ => [(Constructor.list .wide).code]
  | map _ => [(Constructor.map .wide).code]
  | array _ => [(Constructor.array .wide).code]
  | described descriptor value =>
    Constructor.described :: (descriptor.encode ++ elementConstructor value)

/-- The content of an array element in the width of its `elementConstructor`. -/
def elementBody : Value → Bytes
  | null => []
  | bool v => [if v then 1 else 0]
  | ubyte v => [v]
  | ushort v => Word.encode 2 v.toNat
  | uint v => Word.encode 4 v.toNat
  | ulong v => Word.encode 8 v.toNat
  | byte v => [v.toUInt8]
  | short v => Word.encode 2 v.toUInt16.toNat
  | int v => Word.encode 4 v.toUInt32.toNat
  | long v => Word.encode 8 v.toUInt64.toNat
  | float bits => Word.encode 4 bits.toNat
  | double bits => Word.encode 8 bits.toNat
  | char v => Word.encode 4 v.toNat
  | timestamp v => Word.encode 8 v.toUInt64.toNat
  | uuid high low => Word.encode 8 high.toNat ++ Word.encode 8 low.toNat
  | binary v => Word.encode 4 v.length ++ v
  | string v =>
    let content := Utf8.encode v
    Word.encode 4 content.length ++ content
  | symbol v =>
    let content := Utf8.encode v
    Word.encode 4 content.length ++ content
  | list items => wideCompound items.length (encodeItemsOnto items []).reverse
  | map entries => wideCompound (entries.length * 2) (encodeEntriesOnto entries []).reverse
  | array items => wideCompound items.length (arrayContent items)
  | described _ value => elementBody value

/-- The bodies of array elements, pushed onto reversed octets. -/
def elementBodiesOnto : List Value → Bytes → Bytes
  | [], reversed => reversed
  | item :: items, reversed => elementBodiesOnto items ((elementBody item).reverseAux reversed)

end

/-- The number of octets of a value. -/
def size (v : Value) : Nat := v.encode.length

/-! ## Contents of compound values -/

/-- The encodings of items one after another. -/
def encodeItems (items : List Value) : Bytes := (encodeItemsOnto items []).reverse

/-- The encodings of keys and values in turn. -/
def encodeEntries (entries : List (Value × Value)) : Bytes := (encodeEntriesOnto entries []).reverse

/-- The bodies of array elements one after another. -/
def elementBodies (items : List Value) : Bytes := (elementBodiesOnto items []).reverse

theorem reverse_encodeItemsOnto (items : List Value) (reversed : Bytes) :
    (encodeItemsOnto items reversed).reverse = reversed.reverse ++ encodeItems items := by
  induction items generalizing reversed with
  | nil => simp [encodeItems, encodeItemsOnto]
  | cons item items ih =>
    rw [encodeItems, encodeItemsOnto, encodeItemsOnto, ih, ih]
    simp [List.reverseAux_eq]

@[simp] theorem encodeItems_nil : encodeItems [] = [] := rfl

@[simp] theorem encodeItems_cons (item : Value) (items : List Value) :
    encodeItems (item :: items) = item.encode ++ encodeItems items := by
  rw [encodeItems, encodeItemsOnto, reverse_encodeItemsOnto]
  simp [List.reverseAux_eq]

theorem reverse_encodeEntriesOnto (entries : List (Value × Value)) (reversed : Bytes) :
    (encodeEntriesOnto entries reversed).reverse = reversed.reverse ++ encodeEntries entries := by
  induction entries generalizing reversed with
  | nil => simp [encodeEntries, encodeEntriesOnto]
  | cons entry entries ih =>
    rw [encodeEntries, encodeEntriesOnto, encodeEntriesOnto, ih, ih]
    simp [List.reverseAux_eq]

@[simp] theorem encodeEntries_nil : encodeEntries [] = [] := rfl

@[simp] theorem encodeEntries_cons (key value : Value) (entries : List (Value × Value)) :
    encodeEntries ((key, value) :: entries) =
      key.encode ++ (value.encode ++ encodeEntries entries) := by
  rw [encodeEntries, encodeEntriesOnto, reverse_encodeEntriesOnto]
  simp [List.reverseAux_eq]

theorem reverse_elementBodiesOnto (items : List Value) (reversed : Bytes) :
    (elementBodiesOnto items reversed).reverse = reversed.reverse ++ elementBodies items := by
  induction items generalizing reversed with
  | nil => simp [elementBodies, elementBodiesOnto]
  | cons item items ih =>
    rw [elementBodies, elementBodiesOnto, elementBodiesOnto, ih, ih]
    simp [List.reverseAux_eq]

@[simp] theorem elementBodies_nil : elementBodies [] = [] := rfl

@[simp] theorem elementBodies_cons (item : Value) (items : List Value) :
    elementBodies (item :: items) = elementBody item ++ elementBodies items := by
  rw [elementBodies, elementBodiesOnto, reverse_elementBodiesOnto]
  simp [List.reverseAux_eq]

theorem encode_list_nil : (list []).encode = [Constructor.emptyList.code] := by
  simp [encode]

theorem encode_list_cons (item : Value) (items : List Value) :
    (list (item :: items)).encode =
      encodeCompound .list (items.length + 1)
        (encodeItems (item :: items)) := by
  simp [encode, encodeItems]

theorem encode_map (entries : List (Value × Value)) :
    (map entries).encode =
      encodeCompound .map (entries.length * 2)
        (encodeEntries entries) := by
  rw [encode, encodeEntries]

theorem arrayContent_cons (item : Value) (items : List Value) :
    arrayContent (item :: items) = elementConstructor item ++ elementBodies (item :: items) := by
  rw [arrayContent, elementBodies, elementBodiesOnto]

end Amqp.Value
