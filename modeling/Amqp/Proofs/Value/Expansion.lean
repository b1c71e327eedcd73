import Amqp.Proofs.Value.RoundTrip
import Amqp.Proofs.Value.Serving
import Amqp.Proofs.Value.Spending

/-!
# How far octets expand

`nodes` counts the values that make up a value.  `limitCount` keeps the elements of one array in
proportion to the octets that are left, or to `maxEmptyElements`, but the decoder copies the
descriptor in front of them into every element.

`spelled` counts such a descriptor once.  So counted, an octet spells at most 65536 values
(`spelled_le_of_decode`), and all values are spelled when no array has described elements.  Counted
with the copies there is no such bound: a descriptor can be an array with a descriptor of its own,
and `tower` stacks them.  Each storey takes 11 octets and multiplies the values by the number of
elements, up to 65536 (`exists_decode_nodes`).
-/

namespace Amqp.Value

open Decoder

/-! ## Counting -/

mutual

/-- The number of values in a value: itself, and those in its items, keys, entries, elements,
descriptor and content. -/
def nodes : Value → Nat
  | list items => 1 + allNodes items
  | map entries => 1 + entryNodes entries
  | array items => 1 + allNodes items
  | described descriptor content => 1 + (nodes descriptor + nodes content)
  | null | bool _ | ubyte _ | ushort _ | uint _ | ulong _ | byte _ | short _ | int _ | long _
  | float _ | double _ | char _ | timestamp _ | uuid _ _ | binary _ | string _ | symbol _ => 1
termination_by structural v => v

/-- The number of values in items. -/
def allNodes : List Value → Nat
  | [] => 0
  | item :: items => nodes item + allNodes items

/-- The number of values in keys and entries. -/
def entryNodes : List (Value × Value) → Nat
  | [] => 0
  | (key, value) :: entries => (nodes key + nodes value) + entryNodes entries

end

mutual

/-- The number of values in a value, but for the descriptors of array elements: only that of the
first element of an array is counted. -/
def spelled : Value → Nat
  | list items => 1 + allSpelled items
  | map entries => 1 + entriesSpelled entries
  | array items => 1 + (sharedSpelled items + elementsSpelled items)
  | described descriptor content => 1 + (spelled descriptor + spelled content)
  | null | bool _ | ubyte _ | ushort _ | uint _ | ulong _ | byte _ | short _ | int _ | long _
  | float _ | double _ | char _ | timestamp _ | uuid _ _ | binary _ | string _ | symbol _ => 1
termination_by structural v => v

/-- The same for items. -/
def allSpelled : List Value → Nat
  | [] => 0
  | item :: items => spelled item + allSpelled items

/-- The same for keys and entries. -/
def entriesSpelled : List (Value × Value) → Nat
  | [] => 0
  | (key, value) :: entries => (spelled key + spelled value) + entriesSpelled entries

/-- The same for the descriptor of the first of some elements. -/
def sharedSpelled : List Value → Nat
  | described descriptor _ :: _ => spelled descriptor
  | _ => 0

/-- The same for elements without their descriptors. -/
def elementsSpelled : List Value → Nat
  | [] => 0
  | described _ content :: items => (1 + spelled content) + elementsSpelled items
  | item :: items => spelled item + elementsSpelled items

end

theorem spelled_of_isScalar {v : Value} (h : v.kind.isScalar = true) : v.spelled = 1 := by
  cases v <;> first | rfl | cases h

/-! ### Elements and their descriptors -/

theorem elementsSpelled_cons {item : Value} (h : item.kind ≠ .described) (items : List Value) :
    elementsSpelled (item :: items) = item.spelled + elementsSpelled items := by
  cases item with
  | described _ _ => exact absurd rfl h
  | _ => rfl

theorem sharedSpelled_cons {item : Value} (h : item.kind ≠ .described) (items : List Value) :
    sharedSpelled (item :: items) = 0 := by
  cases item with
  | described _ _ => exact absurd rfl h
  | _ => rfl

theorem sharedSpelled_eq_zero {items : List Value} (h : ∀ item ∈ items, item.kind ≠ .described) :
    sharedSpelled items = 0 := by
  cases items with
  | nil => rfl
  | cons item items => exact sharedSpelled_cons (h item List.mem_cons_self) items

theorem elementsSpelled_eq {items : List Value} (h : ∀ item ∈ items, item.kind ≠ .described) :
    elementsSpelled items = allSpelled items := by
  induction items with
  | nil => rfl
  | cons item items ih =>
    obtain ⟨hitem, hitems⟩ := List.forall_mem_cons.1 h
    rw [elementsSpelled_cons hitem, ih hitems, allSpelled]

theorem elementsSpelled_le (items : List Value) : elementsSpelled items ≤ allSpelled items := by
  induction items with
  | nil => exact Nat.le_refl 0
  | cons item items ih =>
    by_cases h : item.kind = .described
    · obtain ⟨descriptor, content, rfl⟩ := kind_eq_described_iff.1 h
      rw [elementsSpelled, allSpelled, spelled]
      omega
    · rw [elementsSpelled_cons h, allSpelled]
      omega

/-- Counting the descriptors of all elements counts that of the first one. -/
theorem sharedSpelled_add_le (items : List Value) :
    sharedSpelled items + elementsSpelled items ≤ allSpelled items := by
  cases items with
  | nil => exact Nat.le_refl 0
  | cons item items =>
    have hitems := elementsSpelled_le items
    by_cases h : item.kind = .described
    · obtain ⟨descriptor, content, rfl⟩ := kind_eq_described_iff.1 h
      rw [sharedSpelled, elementsSpelled, allSpelled, spelled]
      omega
    · rw [sharedSpelled_cons h, elementsSpelled_cons h, allSpelled]
      omega

theorem sharedSpelled_map_described_le (d : Value) (contents : List Value) :
    sharedSpelled (contents.map (described d)) ≤ d.spelled := by
  cases contents with
  | nil => exact Nat.zero_le _
  | cons content contents => exact Nat.le_refl _

theorem elementsSpelled_map_described (d : Value) (contents : List Value) :
    elementsSpelled (contents.map (described d)) = contents.length + allSpelled contents := by
  induction contents with
  | nil => rfl
  | cons content contents ih =>
    rw [List.map_cons, elementsSpelled, ih, allSpelled, List.length_cons]
    omega

theorem allNodes_map_described (d : Value) (contents : List Value) :
    allNodes (contents.map (described d)) =
      contents.length * (d.nodes + 1) + allNodes contents := by
  induction contents with
  | nil => simp [allNodes]
  | cons content contents ih =>
    rw [List.map_cons, allNodes, nodes, ih, allNodes, List.length_cons, Nat.succ_mul]
    omega

/-! ### Values whose arrays are plain -/

/-- Whether no array inside a value has described elements. -/
def HasPlainArrays (v : Value) : Prop :=
  ∀ items, IsInside (array items) v → ∀ item ∈ items, item.kind ≠ .described

mutual

/-- Without described elements there are no copies. -/
theorem HasPlainArrays.nodes_eq : (v : Value) → (h : v.HasPlainArrays) → v.nodes = v.spelled
  | list items, h => by
    rw [nodes, spelled, allNodes_eq items (forall_inside_list_iff.1 h)]
  | map entries, h => by
    rw [nodes, spelled, entryNodes_eq entries (forall_inside_map_iff.1 h)]
  | array items, h => by
    obtain ⟨hplain, hitems⟩ := forall_inside_array_iff.1 h
    rw [nodes, spelled, allNodes_eq items hitems, sharedSpelled_eq_zero hplain,
      elementsSpelled_eq hplain, Nat.zero_add]
  | described descriptor content, h => by
    obtain ⟨hdescriptor, hcontent⟩ := forall_inside_described_iff.1 h
    rw [nodes, spelled, HasPlainArrays.nodes_eq descriptor hdescriptor,
      HasPlainArrays.nodes_eq content hcontent]
  | null, _ | bool _, _ | ubyte _, _ | ushort _, _ | uint _, _ | ulong _, _ | byte _, _
  | short _, _ | int _, _ | long _, _ | float _, _ | double _, _ | char _, _ | timestamp _, _
  | uuid _ _, _ | binary _, _ | string _, _ | symbol _, _ => rfl
termination_by structural v => v

theorem allNodes_eq : (items : List Value) → (h : ∀ v ∈ items, v.HasPlainArrays) →
    allNodes items = allSpelled items
  | [], _ => rfl
  | item :: items, h => by
    obtain ⟨hitem, hitems⟩ := List.forall_mem_cons.1 h
    rw [allNodes, allSpelled, HasPlainArrays.nodes_eq item hitem, allNodes_eq items hitems]

theorem entryNodes_eq : (entries : List (Value × Value)) →
    (h : ∀ e ∈ entries, e.1.HasPlainArrays ∧ e.2.HasPlainArrays) →
    entryNodes entries = entriesSpelled entries
  | [], _ => rfl
  | (key, value) :: entries, h => by
    obtain ⟨hentry, hentries⟩ := List.forall_mem_cons.1 h
    rw [entryNodes, entriesSpelled, HasPlainArrays.nodes_eq key hentry.1,
      HasPlainArrays.nodes_eq value hentry.2, entryNodes_eq entries hentries]

end

/-! ## What octets spell -/

/-- What an array element without octets of its own may add to the values that octets spell: itself,
and its descriptor's mark. -/
def allowance (c : Constructor) : Nat := if c.isBodiless then 2 else 0

/-- Whether an octet is there for every 65536 values that a value spells. -/
def IsSpelledBy (v : Value) (n : Nat) : Prop := v.spelled ≤ 65536 * n

/-- Whether this is so behind a constructor, where one value more may be spelled by a descriptor in
front of an array element. -/
def IsSpelledBehind (c : Constructor) (v : Value) (n : Nat) : Prop :=
  v.spelled + 1 ≤ 65536 * n + allowance c

theorem allSpelled_le {items : List Value} {n : Nat} (h : Apiece IsSpelledBy items n) :
    allSpelled items ≤ 65536 * n := by
  induction h with
  | nil => exact Nat.le_refl 0
  | cons hv _ ih =>
    unfold IsSpelledBy at hv
    rw [allSpelled]
    omega

theorem entriesSpelled_le {entries : Entries} {n : Nat}
    (h : Apiece (fun e n => ∃ k l, n = k + l ∧ IsSpelledBy e.1 k ∧ IsSpelledBy e.2 l) entries n) :
    entriesSpelled entries ≤ 65536 * n := by
  induction h with
  | nil => exact Nat.le_refl 0
  | @cons e _ _ _ he _ ih =>
    obtain ⟨key, value⟩ := e
    obtain ⟨k, l, rfl, hkey, hvalue⟩ := he
    unfold IsSpelledBy at hkey hvalue
    rw [entriesSpelled]
    dsimp only at hkey hvalue
    omega

theorem contentsSpelled_le {c : Constructor} {contents : List Value} {n : Nat}
    (h : Apiece (IsSpelledBehind c) contents n)
    (hlimit : c.isBodiless = true → contents.length ≤ maxEmptyElements) :
    contents.length + allSpelled contents ≤ 65536 * (n + 2) := by
  have hall : contents.length + allSpelled contents ≤ 65536 * n + contents.length * allowance c := by
    clear hlimit
    induction h with
    | nil => exact Nat.zero_le _
    | @cons _ contents _ _ hv _ ih =>
      unfold IsSpelledBehind at hv
      rw [allSpelled, List.length_cons, Nat.add_one_mul contents.length]
      omega
  have hfew : contents.length * allowance c ≤ 65536 * 2 := by
    unfold allowance
    split_ifs with hbody
    · exact Nat.mul_le_mul_right 2 (hlimit hbody)
    · omega
  omega

/-- The octets of an array spell its elements, and their descriptor once. -/
theorem elements_le {items : List Value} {n : Nat}
    (h : Elements IsSpelledBy IsSpelledBehind items n) :
    sharedSpelled items + elementsSpelled items ≤ 65536 * (n + 1) := by
  cases h with
  | bare c hitems hlimit =>
    have hsum := sharedSpelled_add_le items
    have hall := contentsSpelled_le hitems hlimit
    omega
  | @described c d contents _ _ hd hcontents hlimit =>
    have hshared := sharedSpelled_map_described_le d contents
    have hall := contentsSpelled_le hcontents hlimit
    unfold IsSpelledBy at hd
    rw [elementsSpelled_map_described]
    omega

theorem isSpelledBehind_of_content (c : Constructor) {v : Value} {m : Nat}
    (h : Content IsSpelledBy IsSpelledBehind c v m) : IsSpelledBehind c v m := by
  have hoctets : ∀ width : Width, 1 ≤ width.octets := fun width => by cases width <;> decide
  unfold IsSpelledBehind
  cases h with
  | scalar hscalar hbody _ =>
    rw [spelled_of_isScalar hscalar]
    by_cases hm : m = 0
    · rw [allowance, if_pos (hbody hm)]
      omega
    · omega
  | emptyList hbody =>
    rw [allowance, if_pos hbody]
    decide
  | @list width items content n _ hitems hn =>
    have hall := allSpelled_le hitems
    have hwidth := hoctets width
    rw [spelled, length_compoundBody]
    omega
  | @map width entries content n _ hentries hn =>
    have hall := entriesSpelled_le hentries
    have hwidth := hoctets width
    rw [spelled, length_compoundBody]
    omega
  | @array width items content n hitems hn =>
    have hall := elements_le hitems
    have hwidth := hoctets width
    rw [spelled, length_compoundBody]
    omega

theorem IsSpelledBehind.isSpelledBy {c : Constructor} {v : Value} {m : Nat}
    (h : IsSpelledBehind c v m) : IsSpelledBy v (m + 1) := by
  have hc : allowance c ≤ 2 := by
    unfold allowance
    split_ifs <;> decide
  unfold IsSpelledBehind at h
  unfold IsSpelledBy
  omega

theorem IsSpelledBy.described {d v : Value} {m n : Nat} (hd : IsSpelledBy d m)
    (hv : IsSpelledBy v n) : IsSpelledBy (described d v) (m + n + 1) := by
  unfold IsSpelledBy at hd hv ⊢
  rw [spelled]
  omega

/-- The octets taken for a value spell at most 65536 values each, and these are all values in it
unless array elements have copies of a descriptor. -/
theorem spelled_le_of_decode {b rest : Bytes} {v : Value} (h : decode b = .ok (v, rest)) :
    ∃ n, b.length = n + rest.length ∧ v.spelled ≤ 65536 * n ∧
      (v.HasPlainArrays → v.nodes ≤ 65536 * n) := by
  obtain ⟨n, hlength, hn⟩ := spends_of_decode (fun c _ _ hc => isSpelledBehind_of_content c hc)
    (fun _ _ _ hv => hv.isSpelledBy) (fun _ _ _ _ hd hv => hd.described hv) h
  exact ⟨n, hlength, hn, fun hplain => hplain.nodes_eq ▸ hn⟩

set_option maxRecDepth 4000 in
/-- Three nulls spelled by four octets. -/
theorem spelled_le_nulls : decode [0xe0, 2, 3, 0x40, 7] = .ok (array [null, null, null], [7]) ∧
    (array [null, null, null]).HasPlainArrays ∧
    ∃ n, 5 = n + 1 ∧ (array [null, null, null]).spelled ≤ 65536 * n ∧
      (array [null, null, null]).nodes ≤ 65536 * n := by
  have hdecode : decode [0xe0, 2, 3, 0x40, 7] = .ok (array [null, null, null], [7]) := by rfl
  have hplain : (array [null, null, null]).HasPlainArrays := by
    intro items hinside
    cases hinside with
    | refl => simp [kind]
    | array hitem hinside =>
      obtain rfl : _ = null := by simpa using hitem
      cases hinside
  obtain ⟨n, hlength, hspelled, hnodes⟩ := spelled_le_of_decode hdecode
  exact ⟨hdecode, hplain, n, hlength, hspelled, hnodes hplain⟩

/-! ## Towers of descriptors -/

/-- Arrays of nulls whose descriptor is the tower below. -/
def tower (count : Nat) : (storeys : Nat) → Value
  | 0 => null
  | storeys + 1 =>
    array ((List.replicate count null).map (described (tower count storeys)))

theorem allNodes_replicate_null (count : Nat) : allNodes (List.replicate count null) = count := by
  induction count with
  | zero => rfl
  | succ count ih =>
    rw [List.replicate_succ, allNodes, ih]
    exact Nat.add_comm 1 count

theorem nodes_tower_succ (count storeys : Nat) :
    (tower count (storeys + 1)).nodes = 1 + (count * ((tower count storeys).nodes + 1) + count) := by
  rw [tower, nodes, allNodes_map_described, List.length_replicate, allNodes_replicate_null]

/-- Each storey multiplies the values of the tower below. -/
theorem pow_le_nodes_tower (count storeys : Nat) :
    Nat.pow count storeys ≤ (tower count storeys).nodes := by
  induction storeys with
  | zero => exact Nat.le_refl 1
  | succ storeys ih =>
    have hpow : Nat.pow count (storeys + 1) = count * Nat.pow count storeys := Nat.mul_comm _ _
    have hmul := Nat.mul_le_mul_left count ih
    rw [nodes_tower_succ, hpow, Nat.mul_add]
    omega

theorem kind_of_mem_replicate_null {count : Nat} : ∀ v ∈ List.replicate count null,
    v.kind = .null := by
  intro v hv
  rw [List.eq_of_mem_replicate hv]
  rfl

theorem isRegular_tower {count : Nat} (hcount : count ≤ maxEmptyElements) (storeys : Nat) :
    (tower count storeys).IsRegular := by
  induction storeys with
  | zero => trivial
  | succ storeys ih =>
    rw [tower, isRegular_array_iff]
    refine ⟨Or.inr ⟨List.replicate count null, ⟨.null, by decide, kind_of_mem_replicate_null, ?_⟩,
      Or.inr ⟨_, rfl⟩⟩, fun v hv => ?_⟩
    · intro _
      rwa [List.length_replicate]
    · obtain ⟨w, hw, rfl⟩ := List.mem_map.1 hv
      rw [List.eq_of_mem_replicate hw]
      exact isRegular_described_iff.2 ⟨ih, trivial⟩

theorem elementBodies_replicate_null (count : Nat) :
    elementBodies (List.replicate count null) = [] := by
  induction count with
  | zero => rfl
  | succ count ih => rw [List.replicate_succ, elementBodies_cons, ih, elementBody, List.append_nil]

/-- The elements of a storey take no octets. -/
theorem encode_tower_succ {count : Nat} (hcount : 256 ≤ count) (storeys : Nat) :
    (tower count (storeys + 1)).encode =
      (Constructor.array .wide).code :: wideCompound count
        (Constructor.described :: ((tower count storeys).encode ++ [Constructor.null.code])) := by
  have hne : List.replicate count null ≠ [] := by
    rw [Ne, List.replicate_eq_nil_iff]
    omega
  rw [tower, encode, arrayContent_map_described (by decide) _ hne kind_of_mem_replicate_null,
    elementBodies_replicate_null, List.append_nil, encodeCompound, List.length_map,
    List.length_replicate]
  exact if_neg (by omega)

theorem length_encode_tower {count : Nat} (hcount : 256 ≤ count) (storeys : Nat) :
    (tower count storeys).encode.length = 11 * storeys + 1 := by
  induction storeys with
  | zero => rfl
  | succ storeys ih =>
    rw [encode_tower_succ hcount, wideCompound]
    simp only [List.length_cons, List.length_append, Word.length_encode, List.length_nil, ih]
    omega

/-- There are values of `11 * storeys + 1` octets with 65536 to the power of `storeys` values in
them. -/
theorem exists_decode_nodes {storeys : Nat} (h : 11 * storeys + 1 < UInt32.size) :
    ∃ b v, b.length = 11 * storeys + 1 ∧ decode b = .ok (v, []) ∧
      Nat.pow 65536 storeys ≤ v.nodes := by
  have hlength : (tower 65536 storeys).encode.length = 11 * storeys + 1 :=
    length_encode_tower (by decide) storeys
  have hdecode := decode_encode_append (isRegular_tower (Nat.le_refl maxEmptyElements) storeys)
    (hlength ▸ h) []
  rw [List.append_nil] at hdecode
  exact ⟨_, _, hlength, hdecode, pow_le_nodes_tower 65536 storeys⟩

/-- Two storeys of 800 elements. -/
def twoStoreys : Bytes :=
  [0xf0, 0, 0, 0, 18, 0, 0, 3, 32, 0, 0xf0, 0, 0, 0, 7, 0, 0, 3, 32, 0, 0x40, 0x40, 0x40]

theorem encode_tower_eq_twoStoreys : (tower 800 2).encode = twoStoreys := by
  rw [encode_tower_succ (by decide), encode_tower_succ (by decide)]
  rfl

/-- Octets that expand to more than 65536 values each. -/
theorem exists_decode_twoStoreys :
    ∃ v, decode twoStoreys = .ok (v, []) ∧ 65536 * twoStoreys.length < v.nodes := by
  have hreg : (tower 800 2).IsRegular := isRegular_tower (by decide) 2
  have hlength : (tower 800 2).encode.length < UInt32.size := by
    rw [length_encode_tower (by decide)]
    decide
  have hdecode := decode_encode_append hreg hlength []
  rw [List.append_nil, encode_tower_eq_twoStoreys] at hdecode
  refine ⟨_, hdecode, ?_⟩
  rw [nodes_tower_succ, nodes_tower_succ]
  decide

end Amqp.Value
