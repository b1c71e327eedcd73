import Amqp.Proofs.Performative.Splitting
import Amqp.Session.Outgoing
import Mathlib.Order.Bounds.Basic

/-!
# The parts of a delivery

A transfer that is split goes out as several, each in a frame of its own.  `Transfer.Parts` says
what they are: together they carry the payload and no frame is too large, the first has all other
fields, and the others have a piece of the payload each.  There are no more of them than the payload
needs.  A split fails only if the longest header that a transfer can have leaves no room in a frame.
-/

namespace Amqp

/-! ## Pieces -/

namespace Bytes

variable {size fuel : Nat} {b p : Bytes}

theorem ne_nil_of_mem_pieces (hsize : 0 < size) (h : p ∈ pieces size fuel b) : p ≠ [] := by
  induction fuel generalizing b with
  | zero => cases h
  | succ fuel ih =>
    rw [pieces] at h
    cases b with
    | nil => cases h
    | cons x b =>
      rw [if_neg (by simp)] at h
      rcases List.mem_cons.1 h with rfl | h
      · obtain ⟨n, rfl⟩ := Nat.exists_eq_succ_of_ne_zero (Nat.ne_of_gt hsize)
        simp
      · exact ih h

/-- There are as many pieces as it takes to hold everything. -/
theorem length_pieces (hsize : 0 < size) (h : b.length ≤ fuel) :
    (pieces size fuel b).length = (b.length + size - 1) / size := by
  induction fuel generalizing b with
  | zero =>
    rw [Nat.le_zero.1 h, Nat.zero_add]
    exact (Nat.div_eq_of_lt (by omega)).symm
  | succ fuel ih =>
    rw [pieces]
    cases b with
    | nil => exact (Nat.div_eq_of_lt (by simp; omega)).symm
    | cons x b =>
      rw [List.length_cons] at h ⊢
      rw [if_neg (by simp), List.length_cons]
      have hdrop := List.length_drop (i := size) (l := x :: b)
      rw [List.length_cons] at hdrop
      rw [ih (by omega), hdrop]
      rcases Nat.lt_or_ge b.length size with hlast | hmore
      · -- The last piece may be shorter.
        rw [Nat.div_eq_of_lt (by omega), Nat.div_eq_of_lt_le (k := 1)] <;> omega
      · have hsplit : b.length + 1 + size - 1 = b.length + 1 - size + size - 1 + size := by omega
        rw [hsplit, Nat.add_div_right _ hsize]

end Bytes

namespace Transfer

/-! ## Continuations -/

section

variable (handle : UInt32) (more : Bool)

theorem map_payload_continuations (ps : List Bytes) :
    (continuations handle more ps).map payload = ps := by
  induction ps with
  | nil => rfl
  | cons p ps ih =>
    cases ps with
    | nil => rfl
    | cons q ps => exact congrArg (p :: ·) ih

theorem map_more_continuations {ps : List Bytes} (h : ps ≠ []) :
    (continuations handle more ps).map Transfer.more =
      List.replicate (ps.length - 1) true ++ [more] := by
  induction ps with
  | nil => exact absurd rfl h
  | cons p ps ih =>
    cases ps with
    | nil => rfl
    | cons q ps => exact congrArg (true :: ·) (ih (by simp))

theorem length_continuations (ps : List Bytes) :
    (continuations handle more ps).length = ps.length := by
  rw [← List.length_map (f := payload), map_payload_continuations]

end

/-! ## Parts -/

/-- Whether transfers are the parts of a delivery.  `capacity` is the room for payload in a frame
behind the longest header of the delivery. -/
structure Parts (t : Transfer) (maxFrameSize deliveryId : UInt32) (capacity : Nat)
    (parts : List Transfer) : Prop where
  payload_eq : (parts.map payload).flatten = t.payload
  size_le : ∀ u ∈ parts, Frame.size (.transfer u) ≤ maxFrameSize.toNat
  head_eq : ∃ first, parts.head? = some first ∧
    first = { t with deliveryId := some deliveryId, more := first.more, payload := first.payload }
  tail_eq : ∀ u ∈ parts.tail, u.payload ≠ [] ∧
    u = { handle := t.handle, more := u.more, payload := u.payload }
  more_eq : parts.map more = List.replicate (parts.length - 1) true ++ [t.more]
  length_eq : parts.length = max 1 ((t.payload.length + capacity - 1) / capacity)

/-- No header of a transfer is longer than the one with the longest delivery id and more to come. -/
theorem isGreatest_overhead (t : Transfer) :
    IsGreatest {n | ∃ deliveryId more,
      n = Frame.size (.transfer { t with deliveryId, more, payload := [] })} t.overhead := by
  refine ⟨⟨_, _, rfl⟩, ?_⟩
  rintro n ⟨deliveryId, more, rfl⟩
  exact size_first_le t deliveryId more []

theorem split_of_full {t : Transfer} {maxFrameSize : UInt32} (h : maxFrameSize.toNat ≤ t.overhead) :
    t.split maxFrameSize =
      .error (.invalidValue (.transferHeaderTooLong t.overhead maxFrameSize.toNat)) := by
  unfold split
  exact if_pos h

theorem split_of_fits {t : Transfer} {maxFrameSize : UInt32} (h : t.overhead < maxFrameSize.toNat)
    (hfits : t.payload.length ≤ maxFrameSize.toNat - t.overhead) :
    t.split maxFrameSize = .ok [t] := by
  unfold split
  dsimp only
  rw [if_neg (Nat.not_le.2 h), if_pos hfits]

theorem split_of_exceeds {t : Transfer} {maxFrameSize : UInt32}
    (h : t.overhead < maxFrameSize.toNat)
    (hexceeds : maxFrameSize.toNat - t.overhead < t.payload.length) :
    let capacity := maxFrameSize.toNat - t.overhead
    let rest := t.payload.drop capacity
    t.split maxFrameSize = .ok ({ t with more := true, payload := t.payload.take capacity } ::
      continuations t.handle t.more (Bytes.pieces capacity rest.length rest)) := by
  unfold split
  dsimp only
  rw [if_neg (Nat.not_le.2 h), if_neg (Nat.not_le.2 hexceeds)]

theorem parts_singleton {t : Transfer} {maxFrameSize : UInt32} (deliveryId : UInt32)
    {capacity : Nat} (hcapacity : t.overhead + capacity = maxFrameSize.toNat) (hpos : 0 < capacity)
    (hfits : t.payload.length ≤ capacity) :
    Parts t maxFrameSize deliveryId capacity [{ t with deliveryId := some deliveryId }] where
  payload_eq := List.append_nil _
  size_le u hu := by
    rw [List.mem_singleton] at hu
    subst hu
    exact Nat.le_trans (size_first_le t (some deliveryId) t.more t.payload) (by omega)
  head_eq := ⟨_, rfl, rfl⟩
  tail_eq u hu := by cases hu
  more_eq := rfl
  length_eq := by
    have hcount : (t.payload.length + capacity - 1) / capacity ≤ 1 :=
      Nat.le_of_lt_succ (Nat.div_lt_of_lt_mul (by omega))
    rw [List.length_singleton]
    omega

theorem parts_cons {t : Transfer} {maxFrameSize : UInt32} (deliveryId : UInt32) {capacity : Nat}
    (hcapacity : t.overhead + capacity = maxFrameSize.toNat) (hpos : 0 < capacity)
    (hexceeds : capacity < t.payload.length) :
    let rest := t.payload.drop capacity
    Parts t maxFrameSize deliveryId capacity
      ({ t with
          deliveryId := some deliveryId, more := true, payload := t.payload.take capacity } ::
        continuations t.handle t.more (Bytes.pieces capacity rest.length rest)) := by
  intro rest
  have hrest : rest.length = t.payload.length - capacity := List.length_drop
  have hlength := Bytes.length_pieces hpos (Nat.le_refl rest.length)
  have hflatten : (Bytes.pieces capacity rest.length rest).flatten = rest :=
    Bytes.flatten_pieces hpos (Nat.le_refl _)
  have hne : Bytes.pieces capacity rest.length rest ≠ [] := by
    intro hnil
    rw [hnil] at hflatten
    have hzero := congrArg List.length hflatten
    rw [List.flatten_nil, List.length_nil] at hzero
    omega
  constructor
  · rw [List.map_cons, List.flatten_cons, map_payload_continuations, hflatten]
    exact List.take_append_drop capacity t.payload
  · intro u hu
    rcases List.mem_cons.1 hu with rfl | hu
    · have hsize := size_first_le t (some deliveryId) true (t.payload.take capacity)
      have htake := List.length_take_le capacity t.payload
      exact Nat.le_trans hsize (by omega)
    · obtain ⟨p, hp, more, rfl⟩ := eq_of_mem_continuations hu
      have hsize := size_continuation_le t none more p
      have hp := Bytes.length_le_of_mem_pieces hp
      exact Nat.le_trans hsize (by omega)
  · exact ⟨_, rfl, rfl⟩
  · intro u hu
    obtain ⟨p, hp, more, rfl⟩ := eq_of_mem_continuations hu
    exact ⟨Bytes.ne_nil_of_mem_pieces hpos hp, rfl⟩
  · have hcount := List.length_pos_iff.2 hne
    rw [List.map_cons, map_more_continuations _ _ hne, List.length_cons, length_continuations,
      Nat.add_sub_cancel, ← List.cons_append, ← List.replicate_succ, Nat.sub_add_cancel hcount]
  · have hsum : t.payload.length + capacity - 1 = rest.length + capacity - 1 + capacity := by omega
    rw [List.length_cons, length_continuations, hlength, hsum, Nat.add_div_right _ hpos]
    omega

/-- A split fails only if the longest header of the transfer leaves no room for an octet of payload.
Otherwise it gives the parts of a delivery, whatever delivery id the first one is stamped with. -/
theorem split_spec (t : Transfer) (maxFrameSize deliveryId : UInt32) :
    IsGreatest {n | ∃ deliveryId more,
      n = Frame.size (.transfer { t with deliveryId, more, payload := [] })} t.overhead ∧
    (maxFrameSize.toNat < t.overhead + 1 → t.split maxFrameSize =
      .error (.invalidValue (.transferHeaderTooLong t.overhead maxFrameSize.toNat))) ∧
    (t.overhead + 1 ≤ maxFrameSize.toNat → ∃ parts, t.split maxFrameSize = .ok parts ∧
      Parts t maxFrameSize deliveryId (maxFrameSize.toNat - t.overhead)
        (Session.stamp deliveryId parts)) := by
  refine ⟨isGreatest_overhead t, fun h => split_of_full (Nat.le_of_lt_succ h), fun h => ?_⟩
  have hcapacity : t.overhead + (maxFrameSize.toNat - t.overhead) = maxFrameSize.toNat := by omega
  have hpos : 0 < maxFrameSize.toNat - t.overhead := by omega
  rcases Nat.lt_or_ge (maxFrameSize.toNat - t.overhead) t.payload.length with hexceeds | hfits
  · exact ⟨_, split_of_exceeds h hexceeds, parts_cons deliveryId hcapacity hpos hexceeds⟩
  · exact ⟨_, split_of_fits h hfits, parts_singleton deliveryId hcapacity hpos hfits⟩

end Transfer

end Amqp
