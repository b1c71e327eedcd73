import Amqp.Proofs.Value.Decoded
import Amqp.Proofs.Value.Serving
import Amqp.Proofs.Value.Spending

/-!
# The encoder is compact

Whatever octets a value without arrays was decoded from, in any mixture of widths, `encode` writes
it with no more of them (`encode_length_le_of_decode`).  The induction is over what the decoder can
read, not over values: a list has no more content when its items are written than when they were
read, and a compound value that fitted the narrow width with more content still fits it with less.

Arrays are left out because their elements are always written with a wide constructor.
-/

namespace Amqp.Value

open Decoder

/-! ## Values without arrays -/

/-- Whether a value is no array and has none inside. -/
def IsArrayFree (v : Value) : Prop := ∀ items, ¬ IsInside (array items) v

theorem isArrayFree_of_isScalar {v : Value} (h : v.kind.isScalar = true) : v.IsArrayFree := by
  intro items hinside
  cases hinside <;> cases h

theorem isArrayFree_list_iff {items : List Value} :
    (list items).IsArrayFree ↔ ∀ v ∈ items, v.IsArrayFree :=
  forall_inside_list_iff

theorem isArrayFree_map_iff {entries : Entries} :
    (map entries).IsArrayFree ↔ ∀ e ∈ entries, e.1.IsArrayFree ∧ e.2.IsArrayFree :=
  forall_inside_map_iff

theorem isArrayFree_described_iff {descriptor content : Value} :
    (described descriptor content).IsArrayFree ↔
      descriptor.IsArrayFree ∧ content.IsArrayFree :=
  forall_inside_described_iff

theorem not_isArrayFree_array (items : List Value) : ¬ (array items).IsArrayFree :=
  fun h => h items (.refl _)

/-! ## Contents -/

/-- Whether a value without arrays is written with at most a number of octets. -/
def FitsInto (v : Value) (n : Nat) : Prop := v.IsArrayFree → v.encode.length ≤ n

theorem length_encodeItems_le {items : List Value} {n : Nat} (h : Apiece FitsInto items n)
    (hfree : ∀ v ∈ items, v.IsArrayFree) : (encodeItems items).length ≤ n := by
  induction h with
  | nil => exact Nat.le_refl 0
  | cons hv _ ih =>
    obtain ⟨hitem, hitems⟩ := List.forall_mem_cons.1 hfree
    have hfirst := hv hitem
    have hothers := ih hitems
    rw [encodeItems_cons, List.length_append]
    omega

theorem length_encodeEntries_le {entries : Entries} {n : Nat}
    (h : Apiece (fun e n => ∃ k l, n = k + l ∧ FitsInto e.1 k ∧ FitsInto e.2 l) entries n)
    (hfree : ∀ e ∈ entries, e.1.IsArrayFree ∧ e.2.IsArrayFree) :
    (encodeEntries entries).length ≤ n := by
  induction h with
  | nil => exact Nat.le_refl 0
  | @cons e _ _ _ he _ ih =>
    obtain ⟨key, value⟩ := e
    obtain ⟨k, l, rfl, hkey, hvalue⟩ := he
    obtain ⟨hentry, hentries⟩ := List.forall_mem_cons.1 hfree
    have hk := hkey hentry.1
    have hl := hvalue hentry.2
    have hothers := ih hentries
    rw [encodeEntries_cons, List.length_append, List.length_append]
    dsimp only at hk hl
    omega

/-- A compound value is written in the width in which it was read, or in a narrower one. -/
theorem length_encodeCompound_le (type : Width → Constructor) {width : Width} {count : Nat}
    {content written : Bytes} (hfits : CompoundFits width count content)
    (hwritten : written.length ≤ content.length) :
    (encodeCompound type count written).length ≤ (compoundBody width count content).length + 1 := by
  obtain ⟨hsize, hcount⟩ := hfits
  unfold encodeCompound
  dsimp only
  rw [length_compoundBody]
  by_cases h : written.length < 255 ∧ count < 256
  · rw [if_pos h]
    cases width <;> simp only [Width.octets, List.length_cons] <;> omega
  · rw [if_neg h, List.length_cons, ← compoundBody_wide, length_compoundBody]
    cases width with
    | narrow =>
      have hlength : content.length + 1 < 256 := hsize
      exact absurd ⟨by omega, hcount⟩ h
    | wide => omega

theorem length_encode_list_le {width : Width} {items : List Value} {content : Bytes} {n : Nat}
    (hfits : CompoundFits width items.length content) (hitems : Apiece FitsInto items n)
    (hn : n ≤ content.length) (hfree : (list items).IsArrayFree) :
    (list items).encode.length ≤ (compoundBody width items.length content).length + 1 := by
  have hwritten := length_encodeItems_le hitems (isArrayFree_list_iff.1 hfree)
  cases items with
  | nil => simp [encode_list_nil]
  | cons item items =>
    rw [encode_list_cons]
    exact length_encodeCompound_le .list hfits (by omega)

/-- What was read behind a constructor is written with no more octets than it had there, and one
for a constructor. -/
theorem fitsInto_of_content (c : Constructor) {v : Value} {m : Nat}
    (h : Content FitsInto (fun _ w n => FitsInto w (n + 1)) c v m) : FitsInto v (m + 1) := by
  intro hfree
  cases h with
  | scalar _ _ hlength => exact hlength
  | emptyList _ => simp [encode_list_nil]
  | list hfits hitems hn => exact length_encode_list_le hfits hitems hn hfree
  | map hfits hentries hn =>
    have hwritten := length_encodeEntries_le hentries (isArrayFree_map_iff.1 hfree)
    rw [encode_map]
    exact length_encodeCompound_le .map hfits (by omega)
  | array _ _ => exact absurd hfree (not_isArrayFree_array _)

theorem FitsInto.described {d v : Value} {m n : Nat} (hd : FitsInto d m) (hv : FitsInto v n) :
    FitsInto (described d v) (m + n + 1) := by
  intro hfree
  obtain ⟨hd', hv'⟩ := isArrayFree_described_iff.1 hfree
  have hm := hd hd'
  have hn := hv hv'
  rw [encode, List.length_cons, List.length_append]
  omega

/-! ## Values -/

/-- A value without arrays is written with no more octets than were taken to read it. -/
theorem length_encode_add_le {b rest : Bytes} {v : Value} (h : decode b = .ok (v, rest))
    (hfree : v.IsArrayFree) : v.encode.length + rest.length ≤ b.length := by
  obtain ⟨n, hlength, hv⟩ := spends_of_decode (fun c _ _ hc => fitsInto_of_content c hc)
    (fun _ _ _ hv => hv) (fun _ _ _ _ hd hv => hd.described hv) h
  have hn := hv hfree
  omega

/-- No octets that decode to a value without arrays are fewer than those of its encoding, which
decodes to the value as well unless it is too long for any size. -/
theorem encode_length_le_of_decode {b : Bytes} {v : Value} (h : decode b = .ok (v, []))
    (hfree : v.IsArrayFree) :
    v.encode.length ≤ b.length ∧ (b.length < UInt32.size → decode v.encode = .ok (v, [])) := by
  have hle : v.encode.length ≤ b.length := length_encode_add_le h hfree
  refine ⟨hle, fun hsize => ?_⟩
  have hagain := decode_encode_append (isRegular_of_decode h) (by omega) []
  rwa [List.append_nil] at hagain

/-- A list in the wide form, with an empty map in the wide form and a small number of four octets
inside. -/
def wideList : Bytes :=
  [0xd0, 0, 0, 0, 18, 0, 0, 0, 2, 0xd1, 0, 0, 0, 4, 0, 0, 0, 0, 0x70, 0, 0, 0, 5]

set_option maxRecDepth 4000 in
theorem encode_length_le_wideList :
    ∃ v, decode wideList = .ok (v, []) ∧ v.IsArrayFree ∧ v.encode.length ≤ wideList.length ∧
      decode v.encode = .ok (v, []) := by
  have hdecode : decode wideList = .ok (list [map [], uint 5], []) := by rfl
  have hfree : (list [map [], uint 5]).IsArrayFree := by
    rw [isArrayFree_list_iff]
    intro v hv
    obtain rfl | rfl : v = map [] ∨ v = uint 5 := by simpa using hv
    · rw [isArrayFree_map_iff]
      simp
    · exact isArrayFree_of_isScalar rfl
  obtain ⟨hle, hagain⟩ := encode_length_le_of_decode hdecode hfree
  exact ⟨_, hdecode, hfree, hle, hagain (by decide)⟩

end Amqp.Value
