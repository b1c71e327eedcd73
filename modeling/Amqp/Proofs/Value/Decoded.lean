import Amqp.Proofs.Value.RoundTrip

/-!
# What the decoder gives

Every value that the decoder gives is regular (`isRegular_of_decode`): the elements of an array are
read behind one constructor, which fixes their kind, and behind one descriptor, and `limitCount`
bounds the number of those without octets.  Together with `decode_encode_append` this tells which
values survive being written and read back: the regular ones and no others.
-/

namespace Amqp.Value

open Decoder

/-! ## Kinds behind constructors -/

/-- The kind of the values that a constructor announces. -/
def Kind.ofConstructor : Constructor → Kind
  | .null => null
  | .boolTrue | .boolFalse | .boolean => bool
  | .ubyte => ubyte
  | .byte => byte
  | .uintZero | .smallUint | .uint => uint
  | .ulongZero | .smallUlong | .ulong => ulong
  | .smallInt | .int => int
  | .smallLong | .long => long
  | .ushort => ushort
  | .short => short
  | .float => float
  | .char => char
  | .double => double
  | .timestamp => timestamp
  | .uuid => uuid
  | .binary _ => binary
  | .string _ => string
  | .symbol _ => symbol
  | .emptyList | .list _ => list
  | .map _ => map
  | .array _ => array

theorem ofConstructor_ne_described (c : Constructor) : Kind.ofConstructor c ≠ .described := by
  cases c <;> exact fun h => Kind.noConfusion h

theorem eq_null_of_ofConstructor {c : Constructor} (h : Kind.ofConstructor c = .null) :
    c = .null := by
  cases c <;> first | rfl | cases h

/-- Regular values of the kind that a constructor octet announces. -/
def IsBehind (code : UInt8) (v : Value) : Prop :=
  ∃ c, Constructor.ofCode? code = some c ∧ v.kind = Kind.ofConstructor c ∧ v.IsRegular

theorem IsBehind.isRegular {code : UInt8} {v : Value} (h : IsBehind code v) : v.IsRegular := by
  obtain ⟨_, _, _, hv⟩ := h
  exact hv

/-- Array elements behind one constructor are uniform when their number respects the limit. -/
theorem isUniformContent_of_isBehind {code : UInt8} {rest : Bytes} {contents : List Value}
    (hlimit : contents.length ≤ elementLimit code rest) (hall : ∀ v ∈ contents, IsBehind code v) :
    IsUniformContent contents := by
  cases contents with
  | nil => exact ⟨.null, by decide, by simp, by simp⟩
  | cons v contents =>
    obtain ⟨c, hcode, -, -⟩ := hall v List.mem_cons_self
    refine ⟨Kind.ofConstructor c, ofConstructor_ne_described c, ?_, ?_⟩
    · intro w hw
      obtain ⟨c', hcode', hkind, -⟩ := hall w hw
      rw [hkind, Option.some.inj (hcode'.symm.trans hcode)]
    · intro hnull
      rw [eq_null_of_ofConstructor hnull] at hcode
      rwa [elementLimit, hcode] at hlimit

/-! ## One level of the decoder -/

section Contents

variable {value : Decoder Value} {element : UInt8 → Decoder Value}

theorem yields_limitCount (what : String) (count limit : Nat) :
    Yields (limitCount what count limit) fun _ => count ≤ limit := by
  unfold limitCount
  split_ifs with h
  · exact yields_fail _
  · exact yields_pure (by omega)

theorem yields_listContent (hvalue : Yields value IsRegular) (width : Width) :
    Yields (listContent value width) fun v => v.kind = .list ∧ v.IsRegular := by
  refine yields_bind fun ⟨count, content⟩ => yields_bind fun _ => ?_
  refine (yields_within content (yields_times hvalue count)).bind fun items hitems => ?_
  exact yields_pure ⟨rfl, isRegular_list_iff.2 hitems.1⟩

theorem yields_entry (hvalue : Yields value IsRegular) :
    Yields (entry value) fun e => e.1.IsRegular ∧ e.2.IsRegular :=
  hvalue.bind fun _ hkey => hvalue.bind fun _ hitem => yields_pure ⟨hkey, hitem⟩

theorem yields_mapContent (hvalue : Yields value IsRegular) (width : Width) :
    Yields (mapContent value width) fun v => v.kind = .map ∧ v.IsRegular := by
  refine yields_bind fun ⟨count, content⟩ => yields_bind fun _ => ?_
  split_ifs
  · exact yields_fail _
  · have hentries := yields_times (yields_entry hvalue) (count / 2)
    refine (yields_within content hentries).bind fun entries hall => ?_
    exact yields_pure ⟨rfl, isRegular_map_iff.2 hall.1⟩

theorem yields_elementHead (hvalue : Yields value IsRegular) :
    Yields (elementHead value) fun head => ∀ d, head.1 = some d → d.IsRegular := by
  refine yields_bind fun code => ?_
  split_ifs
  · refine hvalue.bind fun d hd => yields_bind fun _ => yields_pure fun d' h => ?_
    rwa [← Option.some.inj h]
  · exact yields_pure fun _ h => nomatch h

theorem yields_elements (hvalue : Yields value IsRegular)
    (helement : ∀ code, Yields (element code) (IsBehind code)) (count : Nat) :
    Yields (elements value element count) fun items =>
      IsUniform items ∧ ∀ v ∈ items, v.IsRegular := by
  refine (yields_elementHead hvalue).bind fun ⟨descriptor, code⟩ hdescriptor => ?_
  refine yields_bind fun rest => ?_
  refine (yields_limitCount "array" count (elementLimit code rest)).bind fun _ hlimit => ?_
  refine (yields_times (helement code) count).bind fun contents ⟨hall, hlength⟩ => ?_
  have huniform := isUniformContent_of_isBehind (hlength ▸ hlimit) hall
  have hreg : ∀ v ∈ contents, v.IsRegular := fun v hv => (hall v hv).isRegular
  cases descriptor with
  | none => exact yields_pure ⟨Or.inr ⟨contents, huniform, Or.inl rfl⟩, hreg⟩
  | some d =>
    refine yields_pure ⟨Or.inr ⟨contents, huniform, Or.inr ⟨d, rfl⟩⟩, ?_⟩
    intro v hv
    obtain ⟨content, hcontent, rfl⟩ := List.mem_map.1 hv
    exact isRegular_described_iff.2 ⟨hdescriptor d rfl, hreg content hcontent⟩

theorem yields_arrayContentOf (hvalue : Yields value IsRegular)
    (helement : ∀ code, Yields (element code) (IsBehind code)) (width : Width) :
    Yields (arrayContentOf value element width) fun v => v.kind = .array ∧ v.IsRegular := by
  refine yields_bind fun ⟨count, content⟩ => ?_
  have hitems := yields_within content (yields_elements hvalue helement count)
  exact hitems.bind fun items h => yields_pure ⟨rfl, isRegular_array_iff.2 h⟩

theorem yields_charContent : Yields charContent fun v => v.kind = .char ∧ v.IsRegular := by
  refine yields_bind fun code => ?_
  by_cases h : code.isValidChar
  · rw [dif_pos h]
    exact yields_pure ⟨rfl, trivial⟩
  · rw [dif_neg h]
    exact yields_fail _

theorem yields_contentOf (hvalue : Yields value IsRegular)
    (helement : ∀ code, Yields (element code) (IsBehind code)) (c : Constructor) :
    Yields (contentOf value element c) fun v => v.kind = Kind.ofConstructor c ∧ v.IsRegular := by
  cases c with
  | null => exact yields_pure ⟨rfl, trivial⟩
  | boolTrue => exact yields_pure ⟨rfl, trivial⟩
  | boolFalse => exact yields_pure ⟨rfl, trivial⟩
  | uintZero => exact yields_pure ⟨rfl, trivial⟩
  | ulongZero => exact yields_pure ⟨rfl, trivial⟩
  | emptyList => exact yields_pure ⟨rfl, trivial⟩
  | char => exact yields_charContent
  | binary width => cases width <;> exact yields_bind fun _ => yields_pure ⟨rfl, trivial⟩
  | string width => cases width <;> exact yields_bind fun _ => yields_pure ⟨rfl, trivial⟩
  | symbol width => cases width <;> exact yields_bind fun _ => yields_pure ⟨rfl, trivial⟩
  | list width => exact yields_listContent hvalue width
  | map width => exact yields_mapContent hvalue width
  | array width => exact yields_arrayContentOf hvalue helement width
  | _ => exact yields_bind fun _ => yields_pure ⟨rfl, trivial⟩

theorem yields_contentWith (hvalue : Yields value IsRegular)
    (helement : ∀ code, Yields (element code) (IsBehind code)) (code : UInt8) :
    Yields (contentWith value element code) (IsBehind code) := by
  unfold contentWith
  cases h : Constructor.ofCode? code with
  | none => exact yields_fail _
  | some c => exact (yields_contentOf hvalue helement c).mono fun v hv => ⟨c, h, hv⟩

end Contents

/-! ## Every level of the decoder -/

theorem yields_missing (P : Value → Prop) : Yields missing P := by
  intro b a rest e
  cases e

theorem yields_valueAt_and_contentAt (d : Nat) :
    Yields (valueAt d) IsRegular ∧ ∀ code, Yields (contentAt d code) (IsBehind code) := by
  induction d with
  | zero =>
    refine ⟨yields_missing _, fun code => ?_⟩
    rw [contentAt]
    exact yields_contentWith (yields_missing _) (fun _ => yields_missing _) code
  | succ d ih =>
    obtain ⟨hvalue, helement⟩ := ih
    refine ⟨?_, fun code => ?_⟩
    · rw [valueAt]
      refine yields_bind fun code => ?_
      split_ifs
      · refine hvalue.bind fun descriptor hdescriptor => hvalue.bind fun content hcontent => ?_
        exact yields_pure (isRegular_described_iff.2 ⟨hdescriptor, hcontent⟩)
      · exact (helement code).mono fun v hv => hv.isRegular
    · rw [contentAt]
      exact yields_contentWith hvalue helement code

/-- The decoder gives regular values only. -/
theorem isRegular_of_decode {b : Bytes} {v : Value} {rest : Bytes}
    (h : decode b = .ok (v, rest)) : v.IsRegular :=
  (yields_valueAt_and_contentAt b.length).1 b v rest h

/-! ## Which values survive -/

/-- A regular value of less than `UInt32.size` octets is recovered from its encoding in front of any
octets, which are left over.  Everything the decoder gives is regular, so only regular values are
recovered from their encodings, and a decoded value survives being encoded and decoded again. -/
theorem decode_encode_append_and_isRegular_of_decode :
    (∀ (v : Value) (rest : Bytes), v.IsRegular → v.encode.length < UInt32.size →
      decode (v.encode ++ rest) = .ok (v, rest)) ∧
    (∀ (b : Bytes) (v : Value) (rest : Bytes), decode b = .ok (v, rest) → v.IsRegular) ∧
    (∀ (v : Value) (rest : Bytes), decode v.encode = .ok (v, rest) → v.IsRegular) ∧
    (∀ (b : Bytes) (v : Value) (rest : Bytes), decode b = .ok (v, rest) →
      v.encode.length < UInt32.size → ∀ after, decode (v.encode ++ after) = .ok (v, after)) := by
  refine ⟨fun v rest hreg hlength => decode_encode_append hreg hlength rest, ?_, ?_, ?_⟩
  · intro b v rest h
    exact isRegular_of_decode h
  · intro v rest h
    exact isRegular_of_decode h
  · intro b v rest h hlength after
    exact decode_encode_append (isRegular_of_decode h) hlength after

/-- Elements of an array behind one descriptor, in a list behind another one. -/
theorem decode_encode_append_described_array :
    decode ((described (ulong 40) (list [array [described (ulong 7) (int 5),
        described (ulong 7) (int 300)]])).encode ++ [1, 2]) =
      .ok (described (ulong 40) (list [array [described (ulong 7) (int 5),
        described (ulong 7) (int 300)]]), [1, 2]) := by
  refine decode_encode_append_and_isRegular_of_decode.1 _ _ ?_ (by decide)
  have huniform : IsUniform [described (ulong 7) (int 5), described (ulong 7) (int 300)] :=
    Or.inr ⟨[int 5, int 300], ⟨.int, by decide, by decide, by decide⟩, Or.inr ⟨ulong 7, rfl⟩⟩
  exact ⟨trivial, ⟨huniform, ⟨trivial, trivial⟩, ⟨trivial, trivial⟩, trivial⟩, trivial⟩

end Amqp.Value
