/-!
# Byte strings

`Bytes` are lists of octets.  `split? n` cuts off the first `n` octets when there are that many,
in time proportional to `n`.  `Word.encode w n` writes `n` as `w` octets, most significant first,
and `Word.decode` reads such octets back; `decode_encode` and `encode_decode` say that the two are
inverse to each other on words that fit and on strings of the right length.
-/

namespace Amqp

/-- A string of octets. -/
abbrev Bytes := List UInt8

namespace Bytes

/-- The first `n` octets and the rest, or nothing when there are fewer. -/
def split? (b : Bytes) (n : Nat) : Option (Bytes × Bytes) :=
  let front := b.take n
  if front.length = n then some (front, b.drop n) else none

theorem split?_append (a b : Bytes) : split? (a ++ b) a.length = some (a, b) := by
  simp [split?]

theorem split?_eq_some_iff {b front rest : Bytes} {n : Nat} :
    split? b n = some (front, rest) ↔ b = front ++ rest ∧ front.length = n := by
  constructor
  · intro h
    simp only [split?] at h
    split at h
    · rename_i hlen
      obtain ⟨rfl, rfl⟩ : b.take n = front ∧ b.drop n = rest := by simpa using h
      exact ⟨(List.take_append_drop n b).symm, hlen⟩
    · simp at h
  · rintro ⟨rfl, rfl⟩
    exact split?_append front rest

theorem split?_eq_none_iff {b : Bytes} {n : Nat} : split? b n = none ↔ b.length < n := by
  simp only [split?, List.length_take]
  split <;> simp <;> omega

end Bytes

/-! ## Words in network order -/

namespace Word

/-- How many numbers `w` octets can spell. -/
def count : Nat → Nat
  | 0 => 1
  | w + 1 => count w * 256

/-- The `w` low octets of `n`, most significant first. -/
def encode : Nat → Nat → Bytes
  | 0, _ => []
  | w + 1, n => UInt8.ofNat (n / count w) :: encode w n

/-- The number that octets spell, most significant first. -/
def decode (b : Bytes) : Nat :=
  b.foldl (fun n x => n * 256 + x.toNat) 0

theorem count_succ (w : Nat) : count (w + 1) = count w * 256 := rfl

theorem count_pos (w : Nat) : 0 < count w := by
  induction w with
  | zero => decide
  | succ w ih => rw [count_succ]; omega

theorem count_add (v w : Nat) : count (v + w) = count v * count w := by
  induction w with
  | zero => simp [count]
  | succ w ih => rw [← Nat.add_assoc, count_succ, count_succ, ih, Nat.mul_assoc]

@[simp] theorem length_encode (w n : Nat) : (encode w n).length = w := by
  induction w with
  | zero => rfl
  | succ w ih => simp [encode, ih]

theorem foldl_eq_add (b : Bytes) (n : Nat) :
    b.foldl (fun n x => n * 256 + x.toNat) n = n * count b.length + decode b := by
  induction b generalizing n with
  | nil => simp [decode, count]
  | cons x b ih =>
    simp only [decode, List.foldl_cons, List.length_cons]
    rw [ih, ih (0 * 256 + x.toNat), count_succ, Nat.zero_mul, Nat.zero_add, Nat.add_mul,
      Nat.mul_comm (count b.length) 256, ← Nat.mul_assoc, Nat.add_assoc]

theorem decode_cons (x : UInt8) (b : Bytes) :
    decode (x :: b) = x.toNat * count b.length + decode b := by
  have h := foldl_eq_add b (0 * 256 + x.toNat)
  simpa [decode] using h

theorem decode_lt (b : Bytes) : decode b < count b.length := by
  induction b with
  | nil => simp [decode, count]
  | cons x b ih =>
    rw [decode_cons, List.length_cons, count_succ]
    have hx : x.toNat < 256 := x.toNat_lt
    calc x.toNat * count b.length + decode b
        < x.toNat * count b.length + count b.length := by omega
      _ = (x.toNat + 1) * count b.length := by rw [Nat.add_mul, Nat.one_mul]
      _ ≤ 256 * count b.length := Nat.mul_le_mul_right _ hx
      _ = count b.length * 256 := Nat.mul_comm _ _

theorem decode_encode (w n : Nat) : decode (encode w n) = n % count w := by
  induction w with
  | zero => simp [encode, decode, count, Nat.mod_one]
  | succ w ih =>
    rw [encode, decode_cons, ih, length_encode]
    have hx : (UInt8.ofNat (n / count w)).toNat = n / count w % 256 := by simp
    rw [hx, count_succ, Nat.mod_mul, Nat.mul_comm (n / count w % 256), Nat.add_comm]

theorem decode_encode_of_lt {w n : Nat} (h : n < count w) : decode (encode w n) = n := by
  rw [decode_encode, Nat.mod_eq_of_lt h]

theorem encode_mod (w n : Nat) : ∀ k, w ≤ k → encode w (n % count k) = encode w n := by
  induction w with
  | zero => intros; rfl
  | succ w ih =>
    intro k hk
    rw [encode, encode, ih k (by omega)]
    congr 1
    apply UInt8.toNat_inj.1
    simp only [UInt8.toNat_ofNat']
    obtain ⟨j, rfl⟩ : ∃ j, k = w + (1 + j) := ⟨k - (w + 1), by omega⟩
    rw [count_add, count_add, Nat.mod_mul_right_div_self]
    exact Nat.mod_mul_right_mod _ _ _

theorem encode_decode (b : Bytes) : encode b.length (decode b) = b := by
  induction b with
  | nil => rfl
  | cons x b ih =>
    have hx : x.toNat < 256 := x.toNat_lt
    have hb := decode_lt b
    have hpos := count_pos b.length
    rw [List.length_cons, encode, decode_cons]
    congr 1
    · rw [Nat.mul_comm, Nat.mul_add_div hpos, Nat.div_eq_of_lt hb]
      simp
    · have h := encode_mod b.length (x.toNat * count b.length + decode b) b.length (Nat.le_refl _)
      rw [Nat.mul_comm, Nat.mul_add_mod, Nat.mod_eq_of_lt hb, ih] at h
      rw [Nat.mul_comm]
      exact h.symm

end Word

end Amqp
