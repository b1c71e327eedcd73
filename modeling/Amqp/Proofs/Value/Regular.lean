import Amqp.Value.Constructor
import Amqp.Value.Decoding

/-!
# Regular values

The elements of an array travel behind one constructor, so an array can only be read back when its
elements have one kind and, if they are described, one descriptor.  `IsUniform` says this of the
elements of one array and `IsRegular` of every array inside a value.  Elements that are null take no
octets, so an array holds at most `maxEmptyElements` of them.
-/

namespace Amqp.Value

/-! ## Kinds -/

/-- The kinds of values, one for each way of building a value. -/
inductive Kind where
  | null
  | bool
  | ubyte
  | ushort
  | uint
  | ulong
  | byte
  | short
  | int
  | long
  | float
  | double
  | char
  | timestamp
  | uuid
  | binary
  | string
  | symbol
  | list
  | map
  | array
  | described
deriving DecidableEq, Repr

/-- The kind of a value. -/
def kind : Value → Kind
  | null => .null
  | bool _ => .bool
  | ubyte _ => .ubyte
  | ushort _ => .ushort
  | uint _ => .uint
  | ulong _ => .ulong
  | byte _ => .byte
  | short _ => .short
  | int _ => .int
  | long _ => .long
  | float _ => .float
  | double _ => .double
  | char _ => .char
  | timestamp _ => .timestamp
  | uuid _ _ => .uuid
  | binary _ => .binary
  | string _ => .string
  | symbol _ => .symbol
  | list _ => .list
  | map _ => .map
  | array _ => .array
  | described _ _ => .described

theorem kind_eq_described_iff {v : Value} :
    v.kind = .described ↔ ∃ descriptor content, v = described descriptor content := by
  cases v <;> simp [kind]

/-! ## Regularity -/

/-- The contents of array elements: values of one kind that are not described, and only so many of
them when they are null. -/
def IsUniformContent (contents : List Value) : Prop :=
  ∃ k, k ≠ Kind.described ∧ (∀ v ∈ contents, v.kind = k) ∧
    (k = Kind.null → contents.length ≤ maxEmptyElements)

/-- The elements of an array: none, or uniform contents, or uniform contents behind one descriptor
that they share. -/
def IsUniform (items : List Value) : Prop :=
  items = [] ∨ ∃ contents, IsUniformContent contents ∧
    (items = contents ∨ ∃ descriptor, items = contents.map (described descriptor))

mutual

/-- Whether every array inside a value, at any depth, has uniform elements. -/
def IsRegular : Value → Prop
  | list items => AllRegular items
  | map entries => AllRegularEntries entries
  | array items => IsUniform items ∧ AllRegular items
  | described descriptor content => IsRegular descriptor ∧ IsRegular content
  | null | bool _ | ubyte _ | ushort _ | uint _ | ulong _ | byte _ | short _ | int _ | long _
  | float _ | double _ | char _ | timestamp _ | uuid _ _ | binary _ | string _ | symbol _ => True
termination_by structural v => v

/-- Whether all values of a list are regular. -/
def AllRegular : List Value → Prop
  | [] => True
  | item :: items => IsRegular item ∧ AllRegular items

/-- Whether all keys and values of a map are regular. -/
def AllRegularEntries : List (Value × Value) → Prop
  | [] => True
  | (key, value) :: entries => (IsRegular key ∧ IsRegular value) ∧ AllRegularEntries entries

end

theorem allRegular_iff {items : List Value} : AllRegular items ↔ ∀ v ∈ items, v.IsRegular := by
  induction items with
  | nil => simp [AllRegular]
  | cons item items ih => rw [AllRegular, ih, List.forall_mem_cons]

theorem allRegularEntries_iff {entries : List (Value × Value)} :
    AllRegularEntries entries ↔ ∀ e ∈ entries, e.1.IsRegular ∧ e.2.IsRegular := by
  induction entries with
  | nil => simp [AllRegularEntries]
  | cons e entries ih => rw [AllRegularEntries, ih, List.forall_mem_cons]

theorem isRegular_list_iff {items : List Value} :
    (list items).IsRegular ↔ ∀ v ∈ items, v.IsRegular := by
  rw [IsRegular, allRegular_iff]

theorem isRegular_map_iff {entries : List (Value × Value)} :
    (map entries).IsRegular ↔ ∀ e ∈ entries, e.1.IsRegular ∧ e.2.IsRegular := by
  rw [IsRegular, allRegularEntries_iff]

theorem isRegular_array_iff {items : List Value} :
    (array items).IsRegular ↔ IsUniform items ∧ ∀ v ∈ items, v.IsRegular := by
  rw [IsRegular, allRegular_iff]

theorem isRegular_described_iff {descriptor content : Value} :
    (described descriptor content).IsRegular ↔ descriptor.IsRegular ∧ content.IsRegular := by
  rw [IsRegular]

theorem isUniformContent_symbols (names : List String) :
    IsUniformContent (names.map symbol) := by
  refine ⟨.symbol, by decide, ?_, by simp⟩
  intro v hv
  obtain ⟨name, -, rfl⟩ := List.mem_map.1 hv
  rfl

theorem isRegular_symbols (names : List String) : (symbols names).IsRegular := by
  rw [symbols, isRegular_array_iff]
  refine ⟨Or.inr ⟨_, isUniformContent_symbols names, Or.inl rfl⟩, ?_⟩
  intro v hv
  obtain ⟨name, -, rfl⟩ := List.mem_map.1 hv
  trivial

end Amqp.Value
