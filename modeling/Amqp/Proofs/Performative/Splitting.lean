import Amqp.Performative.Splitting
import Amqp.Proofs.Value.Contents
import Mathlib.Data.List.Forall2
import Mathlib.Tactic.SplitIfs

/-!
# Splitting transfers

The frames of a split transfer are no larger than the greatest frame (`size_le_of_mem_split`).  The
bound comes from the header of the transfer with the longest delivery id and all flags that a part
can have: field by field, no part has more to write (`Lighter`), and a composite with lighter
fields is no longer (`length_encode_composite_le`).

The pieces of a payload are the payload, cut (`flatten_pieces`).
-/

namespace Amqp

/-! ## Composites with less to write -/

/-- Whether a field takes no more room than another.  Fields that are null can be left out at the
end of a composite. -/
def Lighter (v w : Value) : Prop := (w.isNull → v.isNull) ∧ v.encode.length ≤ w.encode.length

theorem Lighter.refl (v : Value) : Lighter v v := ⟨id, Nat.le_refl _⟩

theorem trimNulls_cons (v : Value) (fields : List Value) :
    trimNulls (v :: fields) =
      if trimNulls fields = [] ∧ v.isNull then [] else v :: trimNulls fields := by
  unfold trimNulls
  rw [List.reverse_cons, List.dropWhile_append]
  cases h : fields.reverse.dropWhile Value.isNull with
  | nil => cases hv : v.isNull <;> simp [hv]
  | cons w ws => simp

/-- Lighter fields are lighter as a whole: no more of them are written, and in no more octets. -/
theorem trimNulls_lighter {xs ys : List Value} (h : List.Forall₂ Lighter xs ys) :
    (trimNulls xs).length ≤ (trimNulls ys).length ∧
      (Value.encodeItems (trimNulls xs)).length ≤ (Value.encodeItems (trimNulls ys)).length := by
  induction h with
  | nil => exact ⟨Nat.le_refl _, Nat.le_refl _⟩
  | @cons v w xs ys hvw _ ih =>
    obtain ⟨hcount, hlength⟩ := ih
    rw [trimNulls_cons, trimNulls_cons]
    by_cases hw : trimNulls ys = [] ∧ w.isNull
    · have hxs : trimNulls xs = [] := by
        rw [hw.1, List.length_nil] at hcount
        exact List.length_eq_zero_iff.1 (Nat.le_zero.1 hcount)
      rw [if_pos hw, if_pos ⟨hxs, hvw.1 hw.2⟩]
      exact ⟨Nat.le_refl _, Nat.le_refl _⟩
    · rw [if_neg hw]
      split
      · exact ⟨Nat.zero_le _, Nat.zero_le _⟩
      · have hv := hvw.2
        simp only [List.length_cons, Value.encodeItems_cons, List.length_append]
        omega

theorem length_encodeCompound_mono (type : Width → Constructor) {m n : Nat} {a b : Bytes}
    (hcount : m ≤ n) (hlength : a.length ≤ b.length) :
    (Value.encodeCompound type m a).length ≤ (Value.encodeCompound type n b).length := by
  unfold Value.encodeCompound Value.wideCompound
  dsimp only
  split_ifs <;> simp only [List.length_cons, List.length_append, Word.length_encode] <;> omega

theorem length_encode_list_mono {xs ys : List Value} (hcount : xs.length ≤ ys.length)
    (hlength : (Value.encodeItems xs).length ≤ (Value.encodeItems ys).length) :
    (Value.list xs).encode.length ≤ (Value.list ys).encode.length := by
  cases xs with
  | nil =>
    rw [Value.encode_list_nil]
    exact Value.length_encode_pos _
  | cons x xs =>
    cases ys with
    | nil => simp at hcount
    | cons y ys =>
      rw [Value.encode_list_cons, Value.encode_list_cons]
      exact length_encodeCompound_mono _ hcount hlength

theorem length_encode_composite_le {code : UInt64} {xs ys : List Value}
    (h : List.Forall₂ Lighter xs ys) :
    (composite code xs).encode.length ≤ (composite code ys).encode.length := by
  obtain ⟨hcount, hlength⟩ := trimNulls_lighter h
  have hlist := length_encode_list_mono hcount hlength
  have hencode : ∀ fields, (composite code fields).encode =
      Constructor.described ::
        ((Value.ulong code).encode ++ (Value.list (trimNulls fields)).encode) :=
    fun _ => rfl
  rw [hencode, hencode, List.length_cons, List.length_cons, List.length_append, List.length_append]
  omega

theorem lighter_null (v : Value) : Lighter .null v := ⟨fun _ => rfl, Value.length_encode_pos v⟩

theorem length_encode_uint_le (n : UInt32) : (Value.uint n).encode.length ≤ 5 := by
  unfold Value.encode
  split_ifs <;> simp

theorem lighter_uint (n : UInt32) : Lighter (.uint n) (.uint 4294967295) :=
  ⟨nofun, length_encode_uint_le n⟩

theorem lighter_ofOption {α : Type} {toValue : α → Value} {w : Value}
    (h : ∀ a, Lighter (toValue a) w) (o : Option α) : Lighter (.ofOption toValue o) w := by
  cases o with
  | none => exact lighter_null w
  | some a => exact h a

theorem lighter_ofOption_uint (n : Option UInt32) :
    Lighter (.ofOption .uint n) (.uint 4294967295) := lighter_ofOption lighter_uint n

theorem lighter_ofFlag (on : Bool) : Lighter (.ofFlag on) (.bool true) := by
  cases on with
  | false => exact lighter_null _
  | true => exact .refl _

/-! ## Pieces -/

namespace Bytes

theorem flatten_pieces {size : Nat} (hsize : 0 < size) {fuel : Nat} {b : Bytes}
    (h : b.length ≤ fuel) : (pieces size fuel b).flatten = b := by
  induction fuel generalizing b with
  | zero => exact (List.length_eq_zero_iff.1 (Nat.le_zero.1 h)).symm
  | succ fuel ih =>
    rw [pieces]
    cases b with
    | nil => rfl
    | cons x b =>
      have hdrop : ((x :: b).drop size).length ≤ fuel := by
        rw [List.length_drop]
        omega
      rw [if_neg (by simp), List.flatten_cons, ih hdrop, List.take_append_drop]

theorem length_le_of_mem_pieces {size fuel : Nat} {b p : Bytes} (h : p ∈ pieces size fuel b) :
    p.length ≤ size := by
  induction fuel generalizing b with
  | zero => cases h
  | succ fuel ih =>
    rw [pieces] at h
    split at h
    · cases h
    · rcases List.mem_cons.1 h with rfl | h
      · exact List.length_take_le _ _
      · exact ih h

end Bytes

namespace Transfer

theorem eq_of_mem_continuations {handle : UInt32} {more : Bool} {ps : List Bytes} {u : Transfer}
    (h : u ∈ continuations handle more ps) :
    ∃ p ∈ ps, ∃ more', u = { handle, more := more', payload := p } := by
  induction ps with
  | nil => cases h
  | cons p ps ih =>
    cases ps with
    | nil =>
      rw [continuations, List.mem_singleton] at h
      exact ⟨p, List.mem_singleton_self p, more, h⟩
    | cons q ps =>
      rw [continuations] at h
      · rcases List.mem_cons.1 h with h | h
        · exact ⟨p, List.mem_cons_self, true, h⟩
        · obtain ⟨r, hr, more', hu⟩ := ih h
          exact ⟨r, List.mem_cons_of_mem p hr, more', hu⟩
      · exact nofun

/-- The payload of a transfer that is not too large goes out in one frame, and else in a first frame
that is filled and further ones. -/
theorem split_cases {t : Transfer} {maxFrameSize : UInt32} {ts : List Transfer}
    (h : t.split maxFrameSize = .ok ts) :
    ∃ capacity, 0 < capacity ∧ t.overhead + capacity = maxFrameSize.toNat ∧
      (t.payload.length ≤ capacity ∧ ts = [t] ∨
        ∃ ps : List Bytes, ps ≠ [] ∧ ps.flatten = t.payload.drop capacity ∧
          (∀ p ∈ ps, p.length ≤ capacity) ∧
          ts = { t with more := true, payload := t.payload.take capacity } ::
            continuations t.handle t.more ps) := by
  unfold split at h
  dsimp only at h
  split_ifs at h with hroom hfits
  · refine ⟨maxFrameSize.toNat - t.overhead, by omega, by omega, Or.inl ⟨hfits, ?_⟩⟩
    exact (Except.ok.inj h).symm
  · have hpos : 0 < maxFrameSize.toNat - t.overhead := by omega
    have hflatten := Bytes.flatten_pieces hpos
      (Nat.le_refl (t.payload.drop (maxFrameSize.toNat - t.overhead)).length)
    refine ⟨maxFrameSize.toNat - t.overhead, hpos, by omega, Or.inr ⟨_, ?_, hflatten, ?_, ?_⟩⟩
    · intro hnil
      rw [hnil, List.flatten_nil] at hflatten
      have hlength := congrArg List.length hflatten
      rw [List.length_nil, List.length_drop] at hlength
      omega
    · exact fun p hp => Bytes.length_le_of_mem_pieces hp
    · exact (Except.ok.inj h).symm

/-! ## Sizes -/

theorem size_eq (t : Transfer) :
    Frame.size (.transfer t) = t.toValue.encode.length + t.payload.length + frameHeaderSize := by
  unfold Frame.size Performative.encode
  rw [List.length_append]
  rfl

theorem size_first_le (t : Transfer) (deliveryId : Option UInt32) (more : Bool) (payload : Bytes) :
    Frame.size (.transfer { t with deliveryId, more, payload }) ≤ t.overhead + payload.length := by
  have hvalue : (toValue { t with deliveryId, more, payload }).encode.length ≤
      (toValue { t with
        deliveryId := some 4294967295, more := true, payload := [] }).encode.length := by
    refine length_encode_composite_le ?_
    refine .cons (.refl _) (.cons (lighter_ofOption_uint deliveryId) (.cons (.refl _) ?_))
    refine .cons (.refl _) (.cons (.refl _) (.cons (lighter_ofFlag more) ?_))
    refine .cons (.refl _) (.cons (.refl _) (.cons (.refl _) ?_))
    exact .cons (.refl _) (.cons (.refl _) .nil)
  unfold overhead
  rw [size_eq, size_eq, List.length_nil]
  dsimp only
  omega

theorem size_continuation_le (t : Transfer) (deliveryId : Option UInt32) (more : Bool)
    (payload : Bytes) :
    Frame.size (.transfer { handle := t.handle, deliveryId, more, payload }) ≤
      t.overhead + payload.length := by
  have hvalue : (toValue { handle := t.handle, deliveryId, more, payload }).encode.length ≤
      (toValue { t with
        deliveryId := some 4294967295, more := true, payload := [] }).encode.length := by
    refine length_encode_composite_le ?_
    refine .cons (.refl _) (.cons (lighter_ofOption_uint deliveryId) (.cons (lighter_null _) ?_))
    refine .cons (lighter_null _) (.cons (lighter_null _) (.cons (lighter_ofFlag more) ?_))
    refine .cons (lighter_null _) (.cons (lighter_null _) (.cons (lighter_null _) ?_))
    exact .cons (lighter_null _) (.cons (lighter_null _) .nil)
  unfold overhead
  rw [size_eq, size_eq, List.length_nil]
  dsimp only
  omega

/-- Every frame of a split transfer fits, whatever delivery id it is given. -/
theorem size_le_of_mem_split {t u : Transfer} {maxFrameSize : UInt32} {ts : List Transfer}
    (h : t.split maxFrameSize = .ok ts) (hu : u ∈ ts) (deliveryId : Option UInt32) :
    Frame.size (.transfer { u with deliveryId }) ≤ maxFrameSize.toNat := by
  obtain ⟨capacity, -, hcapacity, ⟨hfits, rfl⟩ | ⟨ps, -, -, hps, rfl⟩⟩ := split_cases h
  · rw [List.mem_singleton] at hu
    subst hu
    have hsize := size_first_le u deliveryId u.more u.payload
    exact Nat.le_trans hsize (by omega)
  · rcases List.mem_cons.1 hu with rfl | hu
    · have hsize := size_first_le t deliveryId true (t.payload.take capacity)
      have htake := List.length_take_le capacity t.payload
      exact Nat.le_trans hsize (by omega)
    · obtain ⟨p, hp, more, rfl⟩ := eq_of_mem_continuations hu
      have hsize := size_continuation_le t deliveryId more p
      have hp := hps p hp
      exact Nat.le_trans hsize (by omega)

end Transfer

end Amqp
