import Amqp.Proofs.Value.Contents

/-!
# Reading back what was written

A regular value is recovered from its encoding, and what follows the encoding is left alone
(`reads_encode`).  The proof follows the depth that bounds the decoder.  At each depth there are
three readers to speak of (`ReadsAt`): of whole values, of what stands behind the compact
constructor of a value, and of array elements behind the wide constructor that they share.  Each of
them only needs readers for shorter encodings (`ReadsBelow`).
-/

namespace Amqp.Value

open Decoder

/-! ## Shorter encodings -/

/-- Readers that recover every regular value from an encoding, and every array element from a body,
of fewer than `n` octets. -/
structure ReadsBelow (n : Nat) (value : Decoder Value) (element : UInt8 → Decoder Value) :
    Prop where
  value : ∀ v : Value, v.IsRegular → v.encode.length < n → Reads value v.encode v
  element : ∀ v : Value, v.kind ≠ .described → v.IsRegular → (elementBody v).length < n →
    Reads (element v.kind.constructor.code) (elementBody v) v

/-- A regular array has no more elements than octets of content, or than null ones may be. -/
theorem length_le_of_isUniform {items : List Value} (h : IsUniform items) :
    items.length ≤ max (arrayContent items).length maxEmptyElements := by
  by_cases hnil : items = []
  · subst hnil
    exact Nat.zero_le _
  · rcases h with hempty | ⟨contents, ⟨k, hk, hkind, hfew⟩, rfl | ⟨d, rfl⟩⟩
    · exact absurd hempty hnil
    · have hlimit := length_le_elementLimit hk hkind hfew []
      have hbound := elementLimit_le k.constructor.code (elementBodies items ++ [])
      have hlength := congrArg List.length (arrayContent_of_kind hk hnil hkind)
      simp only [List.length_append, List.length_nil] at hlength hbound
      omega
    · have hne : contents ≠ [] := fun h => hnil (by rw [h]; rfl)
      have hlimit := length_le_elementLimit hk hkind hfew []
      have hbound := elementLimit_le k.constructor.code (elementBodies contents ++ [])
      have hlength := congrArg List.length (arrayContent_map_described hk d hne hkind)
      rw [List.length_map]
      simp only [List.length_append, List.length_nil] at hlength hbound
      omega

section Contents

variable {value : Decoder Value} {element : UInt8 → Decoder Value} {n : Nat}

theorem ReadsBelow.items (h : ReadsBelow n value element) {items : List Value}
    (hreg : ∀ v ∈ items, v.IsRegular) (hn : (encodeItems items).length < n) :
    ∀ v ∈ items, Reads value v.encode v := by
  intro v hv
  rw [encodeItems_eq_flatMap] at hn
  exact h.value v (hreg v hv) (Nat.lt_of_le_of_lt (length_le_length_flatMap hv) hn)

theorem ReadsBelow.entries (h : ReadsBelow n value element) {entries : List (Value × Value)}
    (hreg : ∀ e ∈ entries, e.1.IsRegular ∧ e.2.IsRegular)
    (hn : (encodeEntries entries).length < n) :
    ∀ e ∈ entries, Reads value e.1.encode e.1 ∧ Reads value e.2.encode e.2 := by
  intro e he
  have hlength : (e.1.encode ++ e.2.encode).length ≤ (encodeEntries entries).length := by
    rw [encodeEntries_eq_flatMap]
    exact @length_le_length_flatMap _ (fun e => e.1.encode ++ e.2.encode) entries e he
  rw [List.length_append] at hlength
  exact ⟨h.value e.1 (hreg e he).1 (by omega), h.value e.2 (hreg e he).2 (by omega)⟩

theorem ReadsBelow.bodies (h : ReadsBelow n value element) {k : Kind} (hk : k ≠ .described)
    {contents : List Value} (hall : ∀ v ∈ contents, v.kind = k)
    (hreg : ∀ v ∈ contents, v.IsRegular) (hn : (elementBodies contents).length < n) :
    ∀ v ∈ contents, Reads (element k.constructor.code) (elementBody v) v := by
  intro v hv
  have hkind := hall v hv
  rw [elementBodies_eq_flatMap] at hn
  rw [← hkind]
  exact h.element v (hkind ▸ hk) (hreg v hv)
    (Nat.lt_of_le_of_lt (length_le_length_flatMap hv) hn)

/-- The elements of a regular array are read from its content. -/
theorem ReadsBelow.elements (h : ReadsBelow n value element) {items : List Value}
    (hreg : (array items).IsRegular) (hn : (arrayContent items).length ≤ n) :
    Reads (elements value element items.length) (arrayContent items) items := by
  obtain ⟨huniform, hall⟩ := isRegular_array_iff.1 hreg
  by_cases hnil : items = []
  · -- an empty array has a null constructor in front of no elements
    subst hnil
    exact reads_elements (k := .null) (by decide) (by simp) (by simp) (by simp)
      (reads_elementHead_bare .null)
  · rcases huniform with hempty | ⟨contents, ⟨k, hk, hkind, hfew⟩, rfl | ⟨d, rfl⟩⟩
    · exact absurd hempty hnil
    · have hcontent := arrayContent_of_kind hk hnil hkind
      have hlength := congrArg List.length hcontent
      rw [List.length_append, List.length_singleton] at hlength
      have hread := h.bodies hk hkind hall (by omega)
      rw [hcontent]
      exact reads_elements hk hkind hfew hread (reads_elementHead_bare k.constructor)
    · have hne : contents ≠ [] := fun h => hnil (by rw [h]; rfl)
      have hdescribed : ∀ v ∈ contents, d.IsRegular ∧ v.IsRegular := fun v hv =>
        isRegular_described_iff.1 (hall _ (List.mem_map_of_mem hv))
      obtain ⟨v, hv⟩ := List.exists_mem_of_ne_nil contents hne
      have hcontent := arrayContent_map_described hk d hne hkind
      have hlength := congrArg List.length hcontent
      simp only [List.length_append, List.length_cons, List.length_nil] at hlength
      have hd := h.value d (hdescribed v hv).1 (by omega)
      have hread := h.bodies hk hkind (fun v hv => (hdescribed v hv).2) (by omega)
      rw [hcontent, List.length_map]
      exact reads_elements hk hkind hfew hread (reads_elementHead_described hd k.constructor)

/-! ## One level of the decoder -/

theorem ReadsBelow.isReadBehind_list (h : ReadsBelow n value element) {items : List Value}
    (hreg : (list items).IsRegular) (hlength : (list items).encode.length < UInt32.size)
    (hn : (list items).encode.length ≤ n + 1) : IsReadBehind value element (list items) := by
  cases items with
  | nil => exact ⟨.emptyList, [], encode_list_nil, reads_pure _⟩
  | cons item items =>
    have hcount := length_le_length_encodeItems (item :: items)
    have hle := length_le_length_encodeCompound .list (items.length + 1)
      (encodeItems (item :: items))
    rw [List.length_cons] at hcount
    rw [encode_list_cons] at hlength hn
    obtain ⟨width, heq, hfits⟩ := encodeCompound_eq .list (by omega) hlength
    refine ⟨.list width, _, (encode_list_cons item items).trans heq, ?_⟩
    exact reads_listContent (h.items (isRegular_list_iff.1 hreg) (by omega)) hfits

theorem ReadsBelow.isReadBehind_map (h : ReadsBelow n value element)
    {entries : List (Value × Value)} (hreg : (map entries).IsRegular)
    (hlength : (map entries).encode.length < UInt32.size)
    (hn : (map entries).encode.length ≤ n + 1) : IsReadBehind value element (map entries) := by
  have hcount := length_le_length_encodeEntries entries
  have hle := length_le_length_encodeCompound .map (entries.length * 2) (encodeEntries entries)
  rw [encode_map] at hlength hn
  obtain ⟨width, heq, hfits⟩ := encodeCompound_eq .map (by omega) hlength
  refine ⟨.map width, _, (encode_map entries).trans heq, ?_⟩
  exact reads_mapContent (h.entries (isRegular_map_iff.1 hreg) (by omega)) hfits

theorem ReadsBelow.isReadBehind_array (h : ReadsBelow n value element) {items : List Value}
    (hreg : (array items).IsRegular) (hlength : (array items).encode.length < UInt32.size)
    (hn : (array items).encode.length ≤ n + 1) : IsReadBehind value element (array items) := by
  have hle := length_le_length_encodeCompound .array items.length (arrayContent items)
  have hcount := length_le_of_isUniform (isRegular_array_iff.1 hreg).1
  have hmax : maxEmptyElements < UInt32.size := by decide
  rw [encode] at hlength hn
  obtain ⟨width, heq, hfits⟩ := encodeCompound_eq .array (by omega) hlength
  refine ⟨.array width, _, (by rw [encode]; exact heq), ?_⟩
  exact reads_arrayContentOf (h.elements hreg (by omega)) hfits

/-- What stands behind the compact constructor of a regular value needs readers for shorter
encodings only. -/
theorem ReadsBelow.isReadBehind (h : ReadsBelow n value element) {v : Value}
    (hbare : v.kind ≠ .described) (hreg : v.IsRegular) (hlength : v.encode.length < UInt32.size)
    (hn : v.encode.length ≤ n + 1) : IsReadBehind value element v := by
  cases v with
  | bool b => exact isReadBehind_bool b
  | uint x => exact isReadBehind_uint x hlength
  | ulong x => exact isReadBehind_ulong x hlength
  | int x => exact isReadBehind_int x hlength
  | long x => exact isReadBehind_long x hlength
  | binary b => exact isReadBehind_binary b hlength
  | string s => exact isReadBehind_string s hlength
  | symbol s => exact isReadBehind_symbol s hlength
  | list items => exact h.isReadBehind_list hreg hlength hn
  | map entries => exact h.isReadBehind_map hreg hlength hn
  | array items => exact h.isReadBehind_array hreg hlength hn
  | described _ _ => exact absurd rfl hbare
  | _ => exact isReadBehind_scalar rfl rfl hlength

/-- What stands behind the wide constructor of a regular array element needs readers for shorter
encodings only. -/
theorem ReadsBelow.elementBody (h : ReadsBelow n value element) {v : Value}
    (hbare : v.kind ≠ .described) (hreg : v.IsRegular)
    (hlength : (elementBody v).length < UInt32.size) (hn : (Value.elementBody v).length ≤ n) :
    Reads (contentOf value element v.kind.constructor) (Value.elementBody v) v := by
  cases v with
  | list items =>
    change (compoundBody .wide items.length (encodeItems items)).length < _ at hlength
    change (compoundBody .wide items.length (encodeItems items)).length ≤ n at hn
    rw [length_compoundBody, Width.octets] at hn
    have hcount := length_le_length_encodeItems items
    exact reads_listContent (h.items (isRegular_list_iff.1 hreg) (by omega))
      (compoundFits_wide hlength (by omega))
  | map entries =>
    change (compoundBody .wide (entries.length * 2) (encodeEntries entries)).length < _ at hlength
    change (compoundBody .wide (entries.length * 2) (encodeEntries entries)).length ≤ n at hn
    rw [length_compoundBody, Width.octets] at hn
    have hcount := length_le_length_encodeEntries entries
    exact reads_mapContent (h.entries (isRegular_map_iff.1 hreg) (by omega))
      (compoundFits_wide hlength (by omega))
  | array items =>
    change (compoundBody .wide items.length (arrayContent items)).length < _ at hlength
    change (compoundBody .wide items.length (arrayContent items)).length ≤ n at hn
    rw [length_compoundBody, Width.octets] at hn
    have hcount := length_le_of_isUniform (isRegular_array_iff.1 hreg).1
    exact reads_arrayContentOf (h.elements hreg (by omega))
      (compoundFits_wide hlength hcount)
  | described _ _ => exact absurd rfl hbare
  | _ => exact reads_scalar rfl hlength

end Contents

/-! ## Every level of the decoder -/

/-- What the decoder does with regular values of at most `d` octets when its depth is `d`. -/
structure ReadsAt (d : Nat) : Prop where
  value : ∀ v : Value, v.IsRegular → v.encode.length < UInt32.size → v.encode.length ≤ d →
    Reads (valueAt d) v.encode v
  compact : ∀ v : Value, v.kind ≠ .described → v.IsRegular → v.encode.length < UInt32.size →
    v.encode.length ≤ d + 1 →
    ∃ c body, v.encode = Constructor.code c :: body ∧ Reads (contentAt d c.code) body v
  element : ∀ v : Value, v.kind ≠ .described → v.IsRegular →
    (elementBody v).length < UInt32.size → (elementBody v).length ≤ d →
    Reads (contentAt d v.kind.constructor.code) (elementBody v) v

theorem contentWith_code (value : Decoder Value) (element : UInt8 → Decoder Value)
    (c : Constructor) : contentWith value element c.code = contentOf value element c := by
  rw [contentWith, Constructor.ofCode?_code]

theorem readsAt_zero : ReadsAt 0 where
  value v _ _ hd := absurd (length_encode_pos v) (by omega)
  compact v hbare hreg hlength hd := by
    have hbelow : ReadsBelow 0 missing fun _ => missing :=
      ⟨fun _ _ h => absurd h (Nat.not_lt_zero _), fun _ _ _ h => absurd h (Nat.not_lt_zero _)⟩
    obtain ⟨c, body, heq, hread⟩ := hbelow.isReadBehind hbare hreg hlength hd
    exact ⟨c, body, heq, by rw [contentAt, contentWith_code]; exact hread⟩
  element v hbare hreg hlength hd := by
    have hbelow : ReadsBelow 0 missing fun _ => missing :=
      ⟨fun _ _ h => absurd h (Nat.not_lt_zero _), fun _ _ _ h => absurd h (Nat.not_lt_zero _)⟩
    rw [contentAt, contentWith_code]
    exact hbelow.elementBody hbare hreg hlength hd

theorem ReadsAt.below {d : Nat} (h : ReadsAt d) {n : Nat} (hn : n ≤ d + 1)
    (hsize : n ≤ UInt32.size) : ReadsBelow n (valueAt d) (contentAt d) where
  value v hreg hlength := h.value v hreg (by omega) (by omega)
  element v hbare hreg hlength := h.element v hbare hreg (by omega) (by omega)

theorem ReadsAt.succ {d : Nat} (h : ReadsAt d) : ReadsAt (d + 1) where
  value v hreg hlength hd := by
    by_cases hkind : v.kind = .described
    · obtain ⟨descriptor, content, rfl⟩ := kind_eq_described_iff.1 hkind
      obtain ⟨hdescriptor, hcontent⟩ := isRegular_described_iff.1 hreg
      have heq : (described descriptor content).encode =
        [Constructor.described] ++ (descriptor.encode ++ content.encode) := by rw [encode]; rfl
      rw [heq] at hlength hd ⊢
      simp only [List.length_append, List.length_singleton] at hlength hd
      rw [valueAt]
      refine (reads_octet Constructor.described).bind ?_
      rw [if_pos rfl]
      refine (h.value descriptor hdescriptor (by omega) (by omega)).bind ?_
      exact (h.value content hcontent (by omega) (by omega)).map (described descriptor)
    · obtain ⟨c, body, heq, hread⟩ := h.compact v hkind hreg hlength hd
      rw [heq, valueAt]
      refine (reads_octet c.code).bind ?_
      rw [if_neg (Constructor.code_ne_described c)]
      exact hread
  compact v hbare hreg hlength hd := by
    have hbelow := h.below (n := min (d + 1) v.encode.length) (by omega) (by omega)
    obtain ⟨c, body, heq, hread⟩ := hbelow.isReadBehind hbare hreg hlength (by omega)
    exact ⟨c, body, heq, by rw [contentAt, contentWith_code]; exact hread⟩
  element v hbare hreg hlength hd := by
    have hbelow := h.below (n := min (d + 1) (elementBody v).length) (by omega) (by omega)
    rw [contentAt, contentWith_code]
    exact hbelow.elementBody hbare hreg hlength (by omega)

theorem readsAt (d : Nat) : ReadsAt d := by
  induction d with
  | zero => exact readsAt_zero
  | succ d ih => exact ih.succ

/-- The octets of a regular value are read back, whatever follows them. -/
theorem decode_encode_append {v : Value} (hreg : v.IsRegular)
    (hlength : v.encode.length < UInt32.size) (rest : Bytes) :
    decode (v.encode ++ rest) = .ok (v, rest) := by
  have hdepth : v.encode.length ≤ (v.encode ++ rest).length := by
    rw [List.length_append]
    omega
  exact (readsAt _).value v hreg hlength hdepth rest

end Amqp.Value
