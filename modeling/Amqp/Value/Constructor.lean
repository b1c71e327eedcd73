/-!
# Type constructors

The octet in front of an encoded value tells its type and its width.  `Constructor` lists the types
and widths, `Constructor.code` gives the octet of each, and `Constructor.ofCode?` finds the
constructor of an octet; `ofCode?_code` and `code_of_ofCode?` say that the two agree.  The octet
`Constructor.described` announces a descriptor in front of another value.
-/

namespace Amqp

/-- The width of a length or a count: one octet or four. -/
inductive Width where
  | narrow
  | wide
deriving DecidableEq, Repr

/-- The number of octets of a width. -/
def Width.octets : Width → Nat
  | narrow => 1
  | wide => 4

/-- The types of encoded values and their widths.  A `small` number takes one octet, and the
constructors from `null` to `emptyList` stand for one value each. -/
inductive Constructor where
  | null
  | boolTrue
  | boolFalse
  | uintZero
  | ulongZero
  | emptyList
  | ubyte
  | byte
  | smallUint
  | smallUlong
  | smallInt
  | smallLong
  | boolean
  | ushort
  | short
  | uint
  | int
  | float
  | char
  | ulong
  | long
  | double
  | timestamp
  | uuid
  | binary (width : Width)
  | string (width : Width)
  | symbol (width : Width)
  | list (width : Width)
  | map (width : Width)
  | array (width : Width)
deriving DecidableEq, Repr

namespace Constructor

/-- The octet in front of a described value. -/
def described : UInt8 := 0x00

/-- The octet of a constructor. -/
def code : Constructor → UInt8
  | null => 0x40
  | boolTrue => 0x41
  | boolFalse => 0x42
  | uintZero => 0x43
  | ulongZero => 0x44
  | emptyList => 0x45
  | ubyte => 0x50
  | byte => 0x51
  | smallUint => 0x52
  | smallUlong => 0x53
  | smallInt => 0x54
  | smallLong => 0x55
  | boolean => 0x56
  | ushort => 0x60
  | short => 0x61
  | uint => 0x70
  | int => 0x71
  | float => 0x72
  | char => 0x73
  | ulong => 0x80
  | long => 0x81
  | double => 0x82
  | timestamp => 0x83
  | uuid => 0x98
  | binary .narrow => 0xA0
  | string .narrow => 0xA1
  | symbol .narrow => 0xA3
  | binary .wide => 0xB0
  | string .wide => 0xB1
  | symbol .wide => 0xB3
  | list .narrow => 0xC0
  | map .narrow => 0xC1
  | list .wide => 0xD0
  | map .wide => 0xD1
  | array .narrow => 0xE0
  | array .wide => 0xF0

/-- Every constructor, in the order of their octets. -/
def all : List Constructor :=
  [null, boolTrue, boolFalse, uintZero, ulongZero, emptyList, ubyte, byte, smallUint, smallUlong,
    smallInt, smallLong, boolean, ushort, short, uint, int, float, char, ulong, long, double,
    timestamp, uuid, binary .narrow, string .narrow, symbol .narrow, binary .wide, string .wide,
    symbol .wide, list .narrow, map .narrow, list .wide, map .wide, array .narrow, array .wide]

/-- The constructor with a given octet, if there is one. -/
def ofCode? (octet : UInt8) : Option Constructor := all.find? (·.code = octet)

theorem ofCode?_code (c : Constructor) : ofCode? c.code = some c := by
  rcases c with _ | _ | _ | _ | _ | _ | _ | _ | _ | _ | _ | _ | _ | _ | _ | _ | _ | _ | _ | _ | _ |
    _ | _ | _ | w | w | w | w | w | w <;> first | rfl | (cases w <;> rfl)

theorem code_of_ofCode? {octet : UInt8} {c : Constructor} (h : ofCode? octet = some c) :
    c.code = octet := by
  simpa using List.find?_some h

theorem code_ne_described (c : Constructor) : c.code ≠ described := by
  rcases c with _ | _ | _ | _ | _ | _ | _ | _ | _ | _ | _ | _ | _ | _ | _ | _ | _ | _ | _ | _ | _ |
    _ | _ | _ | w | w | w | w | w | w <;> first | decide | (cases w <;> decide)

/-- Whether values of this constructor take no octets beyond the constructor itself. -/
def isBodiless : Constructor → Bool
  | null | boolTrue | boolFalse | uintZero | ulongZero | emptyList => true
  | _ => false

end Constructor

end Amqp
