import Amqp.Proofs.Value.Serving

/-!
# Reading is local

A reader is local if what it takes does not depend on what follows.  Sizes delimit the contents of
compound values, so `within` makes a local reader of any reader, and all readers of contents are
local whatever readers they use for the values inside (`isLocal_contentOf`).

The decoder starts with as much depth as there are octets, hence with more of it if more octets
follow.  More depth than octets changes nothing (`valueAt_eq_decode`), so `decode` takes the same
octets whatever follows them (`exists_front_of_decode`).
-/

namespace Amqp.Value

namespace Decoder

variable {α β : Type}

/-- Whether the octets that a reader takes are the same ones whatever follows them. -/
def IsLocal (r : Decoder α) : Prop :=
  ∀ b a rest, r b = .ok (a, rest) → ∃ front, b = front ++ rest ∧ Reads r front a

/-! ## Rules -/

theorem isLocal_pure (a : α) : IsLocal (pure a) := by
  intro b a' rest h
  obtain ⟨rfl, rfl⟩ := Prod.mk.inj (Except.ok.inj h)
  exact ⟨[], rfl, reads_pure a⟩

theorem isLocal_fail (m : Malformation) : IsLocal (fail m : Decoder α) := by
  intro b a rest h
  cases h

theorem IsLocal.bind {r : Decoder α} {f : α → Decoder β} (hr : IsLocal r)
    (hf : ∀ a, IsLocal (f a)) : IsLocal (r >>= f) := by
  intro b x rest h
  obtain ⟨a, middle, ha, hx⟩ := exists_of_bind_eq_ok h
  obtain ⟨front, rfl, hfront⟩ := hr b a middle ha
  obtain ⟨back, rfl, hback⟩ := hf a middle x rest hx
  exact ⟨front ++ back, (List.append_assoc _ _ _).symm, hfront.bind hback⟩

theorem IsLocal.map {r : Decoder α} (hr : IsLocal r) (f : α → β) :
    IsLocal (r >>= fun a => pure (f a)) :=
  hr.bind fun _ => isLocal_pure _

theorem isLocal_octets (what : String) (n : Nat) : IsLocal (octets what n) := by
  intro b front rest h
  obtain ⟨rfl, rfl⟩ := eq_append_of_octets h
  exact ⟨front, rfl, reads_octets what front⟩

/-- What stands in delimited content does not depend on what follows the content. -/
theorem isLocal_within (content : Bytes) (inner : Decoder α) : IsLocal (within content inner) := by
  intro b a rest h
  obtain ⟨rfl, left, ha⟩ := exists_of_within_eq_ok h
  refine ⟨[], rfl, fun after => ?_⟩
  unfold within
  rw [ha]
  rfl

/-! ## Words and lengths -/

theorem isLocal_word (what : String) (n : Nat) : IsLocal (word what n) :=
  (isLocal_octets what n).map Word.decode

theorem isLocal_octet : IsLocal octet := (isLocal_word "u8" 1).map UInt8.ofNat

theorem isLocal_length (width : Width) : IsLocal (length width) := by
  cases width
  · exact isLocal_word "u8" 1
  · exact isLocal_word "u32" 4

end Decoder

open Decoder

/-! ## Contents -/

theorem isLocal_limitCount (what : String) (count limit : Nat) :
    IsLocal (limitCount what count limit) := by
  unfold limitCount
  split_ifs
  · exact isLocal_fail _
  · exact isLocal_pure ()

theorem isLocal_variableContent (what : String) (width : Width) :
    IsLocal (variableContent what width) :=
  (isLocal_length width).bind fun n => isLocal_octets what n

theorem isLocal_textContent (what : String) (width : Width) : IsLocal (textContent what width) := by
  refine (isLocal_variableContent what width).bind fun content => ?_
  cases Utf8.decode? content with
  | some s => exact isLocal_pure s
  | none => exact isLocal_fail _

theorem isLocal_compoundContent (what : String) (width : Width) :
    IsLocal (compoundContent what width) := by
  refine (isLocal_length width).bind fun size => ?_
  split_ifs
  · exact isLocal_fail _
  · exact (isLocal_octets what size).map _

theorem isLocal_charContent : IsLocal charContent := by
  refine (isLocal_word "u32" 4).bind fun code => ?_
  by_cases h : code.isValidChar
  · rw [dif_pos h]
    exact isLocal_pure _
  · rw [dif_neg h]
    exact isLocal_fail _

section Contents

variable (value : Decoder Value) (element : UInt8 → Decoder Value)

theorem isLocal_listContent (width : Width) : IsLocal (listContent value width) := by
  refine (isLocal_compoundContent "list" width).bind fun ⟨count, content⟩ => ?_
  refine (isLocal_limitCount "list" count content.length).bind fun _ => ?_
  exact (isLocal_within content _).map list

theorem isLocal_mapContent (width : Width) : IsLocal (mapContent value width) := by
  refine (isLocal_compoundContent "map" width).bind fun ⟨count, content⟩ => ?_
  refine (isLocal_limitCount "map" count content.length).bind fun _ => ?_
  split_ifs
  · exact isLocal_fail _
  · exact (isLocal_within content _).map map

theorem isLocal_arrayContentOf (width : Width) : IsLocal (arrayContentOf value element width) :=
  (isLocal_compoundContent "array" width).bind fun ⟨_, content⟩ =>
    (isLocal_within content _).map array

/-- What stands behind a constructor is local, whatever the readers of the values inside it are. -/
theorem isLocal_contentOf (c : Constructor) : IsLocal (contentOf value element c) := by
  cases c with
  | null | boolTrue | boolFalse | uintZero | ulongZero | emptyList => exact isLocal_pure _
  | boolean | ubyte | smallUint | smallUlong => exact isLocal_octet.map _
  | char => exact isLocal_charContent
  | uuid => exact (isLocal_octets "uuid" 16).map _
  | binary width => cases width <;> exact (isLocal_variableContent _ _).map binary
  | string width => cases width <;> exact (isLocal_textContent _ _).map string
  | symbol width => cases width <;> exact (isLocal_textContent _ _).map symbol
  | list width => exact isLocal_listContent value width
  | map width => exact isLocal_mapContent value width
  | array width => exact isLocal_arrayContentOf value element width
  | _ => exact (isLocal_word _ _).map _

theorem isLocal_contentWith (code : UInt8) : IsLocal (contentWith value element code) := by
  unfold contentWith
  cases Constructor.ofCode? code with
  | some c => exact isLocal_contentOf value element c
  | none => exact isLocal_fail _

end Contents

/-! ## Values -/

theorem isLocal_contentAt (d : Nat) (code : UInt8) : IsLocal (contentAt d code) := by
  cases d <;> exact isLocal_contentWith _ _ code

theorem isLocal_valueAt (d : Nat) : IsLocal (valueAt d) := by
  induction d with
  | zero =>
    intro b v rest h
    cases h
  | succ d ih =>
    rw [valueAt]
    refine isLocal_octet.bind fun code => ?_
    split_ifs
    · exact ih.bind fun descriptor => ih.map (described descriptor)
    · exact isLocal_contentAt d code

/-- More depth than there are octets changes nothing. -/
theorem valueAt_eq_decode {b : Bytes} {d : Nat} (h : b.length ≤ d) : valueAt d b = decode b := by
  have hserves := fun enough (henough : b.length ≤ enough) =>
    (Attempt.serves_valueAt_and_contentAt (Nat.le_max_left maxEmptyElements b.length)
      (b.length + 1) enough (Nat.lt_succ_self _) henough (Nat.le_max_right _ _)).1.result_eq
  have heq := (hserves d h).symm.trans (hserves b.length (Nat.le_refl _))
  unfold decode
  generalize valueAt d b = x at heq ⊢
  generalize valueAt b.length b = y at heq ⊢
  cases x <;> cases y <;> cases heq <;> rfl

theorem decode_nil : decode [] = .error (.truncated "u8" 1 0) := rfl

/-- The decoder takes at least one octet, and the same ones whatever follows them. -/
theorem exists_front_of_decode {b rest : Bytes} {v : Value} (h : decode b = .ok (v, rest)) :
    ∃ front, front ≠ [] ∧ b = front ++ rest ∧ ∀ after, decode (front ++ after) = .ok (v, after) := by
  obtain ⟨front, rfl, hfront⟩ := isLocal_valueAt _ _ _ _ h
  have hlength : front.length ≤ (front ++ rest).length := by
    rw [List.length_append]
    omega
  -- The front alone is read at any depth of at least its length, hence in front of anything.
  have halone : decode front = .ok (v, []) := by
    rw [← valueAt_eq_decode hlength]
    simpa using hfront []
  refine ⟨front, ?_, rfl, fun after => ?_⟩
  · rintro rfl
    rw [decode_nil] at halone
    cases halone
  · have hdeep : valueAt (front ++ after).length front = .ok (v, []) := by
      rw [valueAt_eq_decode (by rw [List.length_append]; omega), halone]
    obtain ⟨front', hfront', hread⟩ := isLocal_valueAt _ _ _ _ hdeep
    obtain rfl : front = front' := by simpa using hfront'
    exact hread after

/-- No octets that decode to a value are a proper front part of others that do. -/
theorem eq_nil_of_decode_append {front back : Bytes} {v w : Value}
    (h : decode front = .ok (v, [])) (h' : decode (front ++ back) = .ok (w, [])) : back = [] := by
  obtain ⟨front', -, hfront', hread⟩ := exists_front_of_decode h
  obtain rfl : front = front' := by simpa using hfront'
  rw [hread back] at h'
  cases h'
  rfl

end Amqp.Value
