import Amqp.Proofs.Value.Reading
import Amqp.Proofs.Value.Regular
import Amqp.Value.Encoding
import Mathlib.Tactic.SplitIfs

/-!
# Contents behind constructors

What a value writes behind its constructor is read back by the reader that the constructor selects.
Compound values need readers for the values inside them, and arrays readers for the bodies of their
elements; both are assumed here, and supplied by the induction over the depth of the decoder.
`IsReadBehind` is about the compact constructor of a value, `reads_scalar` and `reads_elements` are
about the wide constructors of array elements.
-/

namespace Amqp.Value

open Decoder

/-! ## Lengths of encodings -/

theorem encode_ne_nil (v : Value) : v.encode ≠ [] := by
  cases v <;> simp only [encode, encodeVariable, encodeCompound] <;> (try split_ifs) <;> simp

theorem length_encode_pos (v : Value) : 0 < v.encode.length :=
  List.length_pos_iff.2 (encode_ne_nil v)

theorem encodeItems_eq_flatMap (items : List Value) : encodeItems items = items.flatMap encode := by
  induction items with
  | nil => rfl
  | cons item items ih => rw [encodeItems_cons, List.flatMap_cons, ih]

theorem encodeEntries_eq_flatMap (entries : List (Value × Value)) :
    encodeEntries entries = entries.flatMap fun e => e.1.encode ++ e.2.encode := by
  induction entries with
  | nil => rfl
  | cons e entries ih =>
    obtain ⟨key, value⟩ := e
    rw [encodeEntries_cons, List.flatMap_cons, ih, List.append_assoc]

theorem elementBodies_eq_flatMap (items : List Value) :
    elementBodies items = items.flatMap elementBody := by
  induction items with
  | nil => rfl
  | cons item items ih => rw [elementBodies_cons, List.flatMap_cons, ih]

theorem length_le_length_flatMap {α : Type} {write : α → Bytes} {items : List α} {a : α}
    (h : a ∈ items) : (write a).length ≤ (items.flatMap write).length := by
  obtain ⟨front, back, rfl⟩ := List.append_of_mem h
  simp only [List.flatMap_append, List.flatMap_cons, List.length_append]
  omega

/-- Items of at least `n` octets each. -/
theorem mul_length_le_length_flatMap {α : Type} {write : α → Bytes} {items : List α} {n : Nat}
    (h : ∀ a ∈ items, n ≤ (write a).length) : items.length * n ≤ (items.flatMap write).length := by
  induction items with
  | nil => simp
  | cons a items ih =>
    have ha := h a List.mem_cons_self
    have hrest := ih fun x hx => h x (List.mem_cons_of_mem a hx)
    rw [List.flatMap_cons, List.length_append, List.length_cons, Nat.succ_mul]
    omega

theorem length_le_length_encodeItems (items : List Value) :
    items.length ≤ (encodeItems items).length := by
  rw [encodeItems_eq_flatMap]
  simpa using mul_length_le_length_flatMap fun v (_ : v ∈ items) => length_encode_pos v

theorem length_le_length_encodeEntries (entries : List (Value × Value)) :
    entries.length * 2 ≤ (encodeEntries entries).length := by
  rw [encodeEntries_eq_flatMap]
  refine mul_length_le_length_flatMap fun e _ => ?_
  have hkey := length_encode_pos e.1
  have hvalue := length_encode_pos e.2
  rw [List.length_append]
  omega

/-! ## Compound contents -/

/-- The size, the count and the content of a compound value in a given width. -/
def compoundBody (width : Width) (count : Nat) (content : Bytes) : Bytes :=
  Word.encode width.octets (content.length + width.octets) ++
    (Word.encode width.octets count ++ content)

/-- Whether the size and the count of a compound value fit a given width. -/
def CompoundFits (width : Width) (count : Nat) (content : Bytes) : Prop :=
  content.length + width.octets < Word.count width.octets ∧ count < Word.count width.octets

theorem count_four : Word.count 4 = UInt32.size := by decide

theorem compoundBody_wide (count : Nat) (content : Bytes) :
    compoundBody .wide count content = wideCompound count content := rfl

theorem compoundBody_narrow (count : Nat) (content : Bytes) :
    compoundBody .narrow count content =
      UInt8.ofNat (content.length + 1) :: UInt8.ofNat count :: content := by
  simp [compoundBody, Width.octets, encode_one]

theorem length_compoundBody (width : Width) (count : Nat) (content : Bytes) :
    (compoundBody width count content).length = 2 * width.octets + content.length := by
  simp only [compoundBody, List.length_append, Word.length_encode]
  omega

/-- A compound value is written in a width that its content fits. -/
theorem encodeCompound_eq (type : Width → Constructor) {count : Nat} {content : Bytes}
    (hcount : count < UInt32.size)
    (hlength : (encodeCompound type count content).length < UInt32.size) :
    ∃ width, encodeCompound type count content =
        (type width).code :: compoundBody width count content ∧
      CompoundFits width count content := by
  unfold encodeCompound at hlength ⊢
  dsimp only at hlength ⊢
  split_ifs at hlength ⊢ with h
  · refine ⟨.narrow, by rw [compoundBody_narrow], ?_, h.2⟩
    change content.length + 1 < 256
    omega
  · rw [List.length_cons, ← compoundBody_wide, length_compoundBody, Width.octets] at hlength
    refine ⟨.wide, by rw [compoundBody_wide], ?_, hcount⟩
    rw [Width.octets, count_four]
    omega

theorem compoundFits_wide {count : Nat} {content : Bytes}
    (hlength : (compoundBody .wide count content).length < UInt32.size)
    (hcount : count ≤ max content.length maxEmptyElements) : CompoundFits .wide count content := by
  have hmax : maxEmptyElements < UInt32.size := by decide
  rw [length_compoundBody, Width.octets] at hlength
  unfold CompoundFits
  rw [Width.octets, count_four]
  omega

theorem length_le_length_encodeCompound (type : Width → Constructor) (count : Nat)
    (content : Bytes) : content.length + 3 ≤ (encodeCompound type count content).length := by
  unfold encodeCompound
  dsimp only
  split_ifs
  · simp
  · simp only [wideCompound, List.length_cons, List.length_append, Word.length_encode]
    omega

theorem reads_length {width : Width} {n : Nat} (h : n < Word.count width.octets) :
    Reads (length width) (Word.encode width.octets n) n := by
  cases width with
  | narrow => exact reads_word "u8" h
  | wide => exact reads_word "u32" h

theorem reads_compoundContent (what : String) {width : Width} {count : Nat} {content : Bytes}
    (h : CompoundFits width count content) :
    Reads (compoundContent what width) (compoundBody width count content) (count, content) := by
  obtain ⟨hlength, hcount⟩ := h
  refine (reads_length hlength).bind ?_
  rw [if_neg (by omega)]
  have hread := (reads_octets what (Word.encode width.octets count ++ content)).map fun b =>
    (Word.decode (b.take width.octets), b.drop width.octets)
  have hsize : (Word.encode width.octets count ++ content).length =
      content.length + width.octets := by
    rw [List.length_append, Word.length_encode, Nat.add_comm]
  have hfront : (Word.encode width.octets count ++ content).take width.octets =
      Word.encode width.octets count := List.take_left' (Word.length_encode _ _)
  have hback : (Word.encode width.octets count ++ content).drop width.octets = content :=
    List.drop_left' (Word.length_encode _ _)
  rw [hsize, hfront, hback, Word.decode_encode_of_lt hcount] at hread
  exact hread

section Compounds

variable {value : Decoder Value} {element : UInt8 → Decoder Value} {width : Width}

theorem reads_listContent {items : List Value} (h : ∀ v ∈ items, Reads value v.encode v)
    (fits : CompoundFits width items.length (encodeItems items)) :
    Reads (listContent value width) (compoundBody width items.length (encodeItems items))
      (list items) := by
  have hitems : Reads (times items.length value) (encodeItems items) items := by
    rw [encodeItems_eq_flatMap]
    exact reads_times h
  refine (reads_compoundContent "list" fits).bind_nil ?_
  refine (reads_limitCount "list" (length_le_length_encodeItems items)).bind_nil ?_
  exact (reads_within hitems).map list

theorem reads_entry {e : Value × Value} (hkey : Reads value e.1.encode e.1)
    (hvalue : Reads value e.2.encode e.2) :
    Reads (entry value) (e.1.encode ++ e.2.encode) e :=
  hkey.bind (hvalue.map fun v => (e.1, v))

theorem reads_mapContent {entries : List (Value × Value)}
    (h : ∀ e ∈ entries, Reads value e.1.encode e.1 ∧ Reads value e.2.encode e.2)
    (fits : CompoundFits width (entries.length * 2) (encodeEntries entries)) :
    Reads (mapContent value width)
      (compoundBody width (entries.length * 2) (encodeEntries entries)) (map entries) := by
  have hentries : Reads (times entries.length (entry value)) (encodeEntries entries) entries := by
    rw [encodeEntries_eq_flatMap]
    exact reads_times fun e he => reads_entry (h e he).1 (h e he).2
  refine (reads_compoundContent "map" fits).bind_nil ?_
  refine (reads_limitCount "map" (length_le_length_encodeEntries entries)).bind_nil ?_
  rw [if_neg (by omega), Nat.mul_div_cancel _ (by omega)]
  exact (reads_within hentries).map map

/-- Reading the elements of an array takes all its content. -/
theorem reads_arrayContentOf {items : List Value}
    (h : Reads (elements value element items.length) (arrayContent items) items)
    (fits : CompoundFits width items.length (arrayContent items)) :
    Reads (arrayContentOf value element width)
      (compoundBody width items.length (arrayContent items)) (array items) :=
  (reads_compoundContent "array" fits).bind_nil ((reads_within h).map array)

end Compounds

/-! ## Array elements -/

/-- The constructor behind which array elements of a kind travel (junk for described ones). -/
def Kind.constructor : Kind → Constructor
  | null => .null
  | bool => .boolean
  | ubyte => .ubyte
  | ushort => .ushort
  | uint => .uint
  | ulong => .ulong
  | byte => .byte
  | short => .short
  | int => .int
  | long => .long
  | float => .float
  | double => .double
  | char => .char
  | timestamp => .timestamp
  | uuid => .uuid
  | binary => .binary .wide
  | string => .string .wide
  | symbol => .symbol .wide
  | list => .list .wide
  | map => .map .wide
  | array => .array .wide
  | described => .null

theorem elementConstructor_eq {v : Value} (h : v.kind ≠ .described) :
    elementConstructor v = [v.kind.constructor.code] := by
  cases v <;> first | rfl | exact absurd rfl h

theorem elementBody_ne_nil {v : Value} (hnull : v.kind ≠ .null) (h : v.kind ≠ .described) :
    elementBody v ≠ [] := by
  cases v with
  | null => exact absurd rfl hnull
  | described _ _ => exact absurd rfl h
  | _ => simp [elementBody, wideCompound, Word.encode]

theorem isBodiless_constructor_iff {k : Kind} (h : k ≠ .described) :
    k.constructor.isBodiless = true ↔ k = .null := by
  cases k <;> first | decide | exact absurd rfl h

theorem elementLimit_le (code : UInt8) (content : Bytes) :
    elementLimit code content ≤ max content.length maxEmptyElements := by
  unfold elementLimit
  split_ifs <;> omega

/-- Uniform contents are never too many for the octets that their bodies take. -/
theorem length_le_elementLimit {k : Kind} (hk : k ≠ .described) {contents : List Value}
    (hall : ∀ v ∈ contents, v.kind = k)
    (hfew : k = .null → contents.length ≤ maxEmptyElements) (rest : Bytes) :
    contents.length ≤ elementLimit k.constructor.code (elementBodies contents ++ rest) := by
  unfold elementLimit
  rw [Constructor.ofCode?_code, Option.any_some]
  split_ifs with hbodiless
  · exact hfew ((isBodiless_constructor_iff hk).1 hbodiless)
  · have hnull : k ≠ .null := fun h => hbodiless ((isBodiless_constructor_iff hk).2 h)
    have hpos : ∀ v ∈ contents, 1 ≤ (elementBody v).length := by
      intro v hv
      have hkind := hall v hv
      exact List.length_pos_iff.2 (elementBody_ne_nil (hkind ▸ hnull) (hkind ▸ hk))
    have hlength := mul_length_le_length_flatMap hpos
    rw [List.length_append, elementBodies_eq_flatMap]
    omega

section Elements

variable {value : Decoder Value} {element : UInt8 → Decoder Value}

theorem reads_elementHead_bare (c : Constructor) :
    Reads (elementHead value) [c.code] (none, c.code) := by
  refine (reads_octet c.code).bind_nil ?_
  rw [if_neg (Constructor.code_ne_described c)]
  exact reads_pure _

theorem reads_elementHead_described {d : Value} (hd : Reads value d.encode d) (c : Constructor) :
    Reads (elementHead value) (Constructor.described :: (d.encode ++ [c.code]))
      (some d, c.code) := by
  refine (reads_octet Constructor.described).bind ?_
  rw [if_pos rfl]
  exact hd.bind ((reads_octet c.code).map fun code => (some d, code))

/-- The elements behind their head, with or without a descriptor in it. -/
theorem reads_elements {k : Kind} (hk : k ≠ .described) {contents : List Value}
    (hall : ∀ v ∈ contents, v.kind = k)
    (hfew : k = .null → contents.length ≤ maxEmptyElements)
    (hread : ∀ v ∈ contents, Reads (element k.constructor.code) (elementBody v) v)
    {head : Bytes} {descriptor : Option Value}
    (hhead : Reads (elementHead value) head (descriptor, k.constructor.code)) :
    Reads (elements value element contents.length) (head ++ elementBodies contents)
      (match descriptor with
        | some d => contents.map (described d)
        | none => contents) := by
  refine hhead.bind (reads_get_bind fun rest => ?_)
  have hlimit := length_le_elementLimit hk hall hfew rest
  refine (reads_limitCount "array" hlimit).bind (b := []) ?_
  have hitems : Reads (times contents.length (element k.constructor.code))
      (elementBodies contents) contents := by
    rw [elementBodies_eq_flatMap]
    exact reads_times hread
  refine hitems.bind_nil ?_
  cases descriptor <;> exact reads_pure _

end Elements

theorem arrayContent_of_kind {k : Kind} (hk : k ≠ .described) {contents : List Value}
    (hne : contents ≠ []) (hall : ∀ v ∈ contents, v.kind = k) :
    arrayContent contents = [k.constructor.code] ++ elementBodies contents := by
  cases contents with
  | nil => exact absurd rfl hne
  | cons v contents =>
    have hkind : v.kind = k := hall v List.mem_cons_self
    rw [arrayContent_cons, elementConstructor_eq (hkind ▸ hk), hkind]

theorem elementBodies_map_described (d : Value) (contents : List Value) :
    elementBodies (contents.map (described d)) = elementBodies contents := by
  induction contents with
  | nil => rfl
  | cons v contents ih =>
    rw [List.map_cons, elementBodies_cons, elementBodies_cons, ih, elementBody]

theorem arrayContent_map_described {k : Kind} (hk : k ≠ .described) (d : Value)
    {contents : List Value} (hne : contents ≠ []) (hall : ∀ v ∈ contents, v.kind = k) :
    arrayContent (contents.map (described d)) =
      (Constructor.described :: (d.encode ++ [k.constructor.code])) ++ elementBodies contents := by
  cases contents with
  | nil => exact absurd rfl hne
  | cons v contents =>
    have hkind : v.kind = k := hall v List.mem_cons_self
    have hbodies := elementBodies_map_described d (v :: contents)
    rw [List.map_cons] at hbodies ⊢
    rw [arrayContent_cons, hbodies, elementConstructor, elementConstructor_eq (hkind ▸ hk), hkind]

/-! ## Contents behind a constructor -/

section Contents

variable {value : Decoder Value} {element : UInt8 → Decoder Value}

theorem reads_uuid (high low : UInt64) :
    Reads (contentOf value element .uuid)
      (Word.encode 8 high.toNat ++ Word.encode 8 low.toNat) (uuid high low) := by
  have hread := (reads_octets "uuid" (Word.encode 8 high.toNat ++ Word.encode 8 low.toNat)).map
    fun b => uuid (UInt64.ofNat (Word.decode (b.take 8))) (UInt64.ofNat (Word.decode (b.drop 8)))
  have hsize : (Word.encode 8 high.toNat ++ Word.encode 8 low.toNat).length = 16 := by
    rw [List.length_append, Word.length_encode, Word.length_encode]
  have hhigh : Word.decode (Word.encode 8 high.toNat) = high.toNat :=
    Word.decode_encode_of_lt high.toNat_lt
  have hlow : Word.decode (Word.encode 8 low.toNat) = low.toNat :=
    Word.decode_encode_of_lt low.toNat_lt
  rw [hsize, List.take_left' (Word.length_encode 8 _), List.drop_left' (Word.length_encode 8 _),
    hhigh, hlow, UInt64.ofNat_toNat, UInt64.ofNat_toNat] at hread
  exact hread

theorem reads_char (c : Char) : Reads charContent (Word.encode 4 c.toNat) (char c) := by
  have hvalid : c.toNat.isValidChar := c.valid
  refine (reads_word_four "u32" c.val).bind_nil ?_
  change Reads (if h : c.toNat.isValidChar then _ else _) [] (char c)
  rw [dif_pos hvalid]
  exact reads_pure (char c)

theorem reads_variableContent (what : String) {width : Width} {content : Bytes}
    (h : content.length < Word.count width.octets) :
    Reads (variableContent what width) (Word.encode width.octets content.length ++ content)
      content :=
  (reads_length h).bind (reads_octets what content)

theorem reads_textContent (what : String) {width : Width} {s : String}
    (h : (Utf8.encode s).length < Word.count width.octets) :
    Reads (textContent what width)
      (Word.encode width.octets (Utf8.encode s).length ++ Utf8.encode s) s := by
  refine (reads_variableContent what h).bind_nil ?_
  rw [Utf8.decode?_encode]
  exact reads_pure s

theorem lt_of_wide_body {content : Bytes}
    (h : (Word.encode 4 content.length ++ content).length < UInt32.size) :
    content.length < Word.count Width.wide.octets := by
  rw [List.length_append] at h
  rw [Width.octets, count_four]
  omega

/-- Whether a kind consists of values that hold no other values. -/
def Kind.isScalar : Kind → Bool
  | list | map | array | described => false
  | _ => true

/-- Scalars are read behind the constructor that they have as array elements. -/
theorem reads_scalar {v : Value} (h : v.kind.isScalar = true)
    (hlength : (elementBody v).length < UInt32.size) :
    Reads (contentOf value element v.kind.constructor) (elementBody v) v := by
  cases v with
  | null => exact reads_pure null
  | bool b => cases b <;> exact (reads_octet _).map fun x => bool (x != 0)
  | ubyte x => exact (reads_octet x).map ubyte
  | ushort x => exact (reads_word_two "ushort" x).map_eq (by rw [UInt16.ofNat_toNat])
  | uint x => exact (reads_word_four "u32" x).map_eq (by rw [UInt32.ofNat_toNat])
  | ulong x => exact (reads_word_eight "ulong" x).map_eq (by rw [UInt64.ofNat_toNat])
  | byte x => exact (reads_byte "byte" x.toUInt8).map_eq (by simp)
  | short x => exact (reads_word_two "short" x.toUInt16).map_eq (by simp)
  | int x => exact (reads_word_four "int" x.toUInt32).map_eq (by simp)
  | long x => exact (reads_word_eight "long" x.toUInt64).map_eq (by simp)
  | float x => exact (reads_word_four "float" x).map_eq (by rw [UInt32.ofNat_toNat])
  | double x => exact (reads_word_eight "double" x).map_eq (by rw [UInt64.ofNat_toNat])
  | char c => exact reads_char c
  | timestamp x => exact (reads_word_eight "timestamp" x.toUInt64).map_eq (by simp)
  | uuid high low => exact reads_uuid high low
  | binary b => exact (reads_variableContent "vbin32" (lt_of_wide_body hlength)).map binary
  | string s => exact (reads_textContent "str32" (lt_of_wide_body hlength)).map string
  | symbol s => exact (reads_textContent "sym32" (lt_of_wide_body hlength)).map symbol
  | list _ => cases h
  | map _ => cases h
  | array _ => cases h
  | described _ _ => cases h

/-! ### Compact contents -/

/-- A value is written as a constructor and octets that are read behind this constructor. -/
def IsReadBehind (value : Decoder Value) (element : UInt8 → Decoder Value) (v : Value) : Prop :=
  ∃ c body, v.encode = c.code :: body ∧ Reads (contentOf value element c) body v

theorem isReadBehind_scalar {v : Value} (h : v.kind.isScalar = true)
    (heq : v.encode = v.kind.constructor.code :: elementBody v)
    (hlength : v.encode.length < UInt32.size) : IsReadBehind value element v := by
  rw [heq, List.length_cons] at hlength
  exact ⟨v.kind.constructor, elementBody v, heq, reads_scalar h (by omega)⟩

theorem isReadBehind_bool (b : Bool) : IsReadBehind value element (bool b) := by
  cases b
  · exact ⟨.boolFalse, [], rfl, reads_pure _⟩
  · exact ⟨.boolTrue, [], rfl, reads_pure _⟩

theorem isReadBehind_uint (x : UInt32) (hlength : (uint x).encode.length < UInt32.size) :
    IsReadBehind value element (uint x) := by
  by_cases hzero : x = 0
  · exact ⟨.uintZero, [], by rw [encode, if_pos hzero], hzero ▸ reads_pure (uint 0)⟩
  · by_cases hsmall : x < 256
    · refine ⟨.smallUint, [x.toUInt8], by rw [encode, if_neg hzero, if_pos hsmall], ?_⟩
      have hx : x.toNat < 256 := UInt32.lt_iff_toNat_lt.1 hsmall
      have heq : x.toUInt8.toUInt32 = x := by
        apply UInt32.toNat_inj.1
        rw [UInt8.toNat_toUInt32, UInt32.toNat_toUInt8]
        omega
      exact (reads_octet x.toUInt8).map_eq (congrArg uint heq)
    · exact isReadBehind_scalar rfl (by rw [encode, if_neg hzero, if_neg hsmall]; rfl) hlength

theorem isReadBehind_ulong (x : UInt64) (hlength : (ulong x).encode.length < UInt32.size) :
    IsReadBehind value element (ulong x) := by
  by_cases hzero : x = 0
  · exact ⟨.ulongZero, [], by rw [encode, if_pos hzero], hzero ▸ reads_pure (ulong 0)⟩
  · by_cases hsmall : x < 256
    · refine ⟨.smallUlong, [x.toUInt8], by rw [encode, if_neg hzero, if_pos hsmall], ?_⟩
      have hx : x.toNat < 256 := UInt64.lt_iff_toNat_lt.1 hsmall
      have heq : x.toUInt8.toUInt64 = x := by
        apply UInt64.toNat_inj.1
        rw [UInt8.toNat_toUInt64, UInt64.toNat_toUInt8]
        omega
      exact (reads_octet x.toUInt8).map_eq (congrArg ulong heq)
    · exact isReadBehind_scalar rfl (by rw [encode, if_neg hzero, if_neg hsmall]; rfl) hlength

theorem fitsByte_iff {n : Int} : fitsByte n = true ↔ -128 ≤ n ∧ n < 128 := by
  simp [fitsByte]

theorem isReadBehind_int (x : Int32) (hlength : (int x).encode.length < UInt32.size) :
    IsReadBehind value element (int x) := by
  by_cases hsmall : fitsByte x.toInt = true
  · refine ⟨.smallInt, [x.toInt8.toUInt8], by rw [encode, if_pos hsmall], ?_⟩
    refine (reads_byte "smallint" x.toInt8.toUInt8).map_eq ?_
    have hx := fitsByte_iff.1 hsmall
    have heq : x.toInt8.toInt32 = x := by
      apply Int32.toInt_inj.1
      rw [Int8.toInt_toInt32, Int32.toInt_toInt8, Int.bmod_def]
      omega
    simp [heq]
  · exact isReadBehind_scalar rfl (by rw [encode, if_neg hsmall]; rfl) hlength

theorem isReadBehind_long (x : Int64) (hlength : (long x).encode.length < UInt32.size) :
    IsReadBehind value element (long x) := by
  by_cases hsmall : fitsByte x.toInt = true
  · refine ⟨.smallLong, [x.toInt8.toUInt8], by rw [encode, if_pos hsmall], ?_⟩
    refine (reads_byte "smalllong" x.toInt8.toUInt8).map_eq ?_
    have hx := fitsByte_iff.1 hsmall
    have heq : x.toInt8.toInt64 = x := by
      apply Int64.toInt_inj.1
      rw [Int8.toInt_toInt64, Int64.toInt_toInt8, Int.bmod_def]
      omega
    simp [heq]
  · exact isReadBehind_scalar rfl (by rw [encode, if_neg hsmall]; rfl) hlength

/-- Octets of variable length are written in a width that holds their length. -/
theorem encodeVariable_eq (type : Width → Constructor) (content : Bytes)
    (h : (encodeVariable type content).length < UInt32.size) :
    ∃ width, encodeVariable type content =
        (type width).code :: (Word.encode width.octets content.length ++ content) ∧
      content.length < Word.count width.octets := by
  unfold encodeVariable at h ⊢
  dsimp only at h ⊢
  split_ifs at h ⊢ with hsmall
  · exact ⟨.narrow, by rw [Width.octets, encode_one]; rfl, hsmall⟩
  · rw [List.length_cons] at h
    exact ⟨.wide, rfl, lt_of_wide_body (by omega)⟩

theorem isReadBehind_binary (b : Bytes) (hlength : (binary b).encode.length < UInt32.size) :
    IsReadBehind value element (binary b) := by
  obtain ⟨width, heq, hwidth⟩ := encodeVariable_eq .binary b hlength
  refine ⟨.binary width, _, heq, ?_⟩
  cases width <;> exact (reads_variableContent _ hwidth).map binary

theorem isReadBehind_string (s : String) (hlength : (string s).encode.length < UInt32.size) :
    IsReadBehind value element (string s) := by
  obtain ⟨width, heq, hwidth⟩ := encodeVariable_eq .string (Utf8.encode s) hlength
  refine ⟨.string width, _, heq, ?_⟩
  cases width <;> exact (reads_textContent _ hwidth).map string

theorem isReadBehind_symbol (s : String) (hlength : (symbol s).encode.length < UInt32.size) :
    IsReadBehind value element (symbol s) := by
  obtain ⟨width, heq, hwidth⟩ := encodeVariable_eq .symbol (Utf8.encode s) hlength
  refine ⟨.symbol width, _, heq, ?_⟩
  cases width <;> exact (reads_textContent _ hwidth).map symbol

end Contents

end Amqp.Value
