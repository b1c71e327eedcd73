import Amqp.Bytes

/-!
# UTF-8

`Utf8.encode` writes a text as octets and `Utf8.decode?` reads it back, refusing octets that are
no UTF-8.  `Utf8.fault` names the first octet that rules the input out: how many octets before it
are well formed, and how many octets the broken sequence spans, or that the input stops inside a
sequence that more octets could complete.
-/

namespace Amqp.Utf8

/-- The octets of a text. -/
def encode (s : String) : Bytes := s.toByteArray.data.toList

/-- The text that octets spell, if they are UTF-8. -/
def decode? (b : Bytes) : Option String := String.fromUTF8? ⟨b.toArray⟩

theorem decode?_encode (s : String) : decode? (encode s) = some s := by
  have h : (⟨(encode s).toArray⟩ : ByteArray) = s.toByteArray := by simp [encode]
  rw [decode?, h, String.fromUTF8?, dif_pos s.isValidUTF8]
  rfl

theorem encode_of_decode? {b : Bytes} {s : String} (h : decode? b = some s) : encode s = b := by
  simp only [decode?, String.fromUTF8?] at h
  split at h
  · simp only [Option.some.injEq] at h
    subst h
    simp [encode, String.fromUTF8]
  · simp at h

/-- Where octets stop being UTF-8: the count of well-formed octets, and the length of the broken
sequence, `none` when the octets end inside a sequence that could still be completed. -/
structure Fault where
  validUpTo : Nat
  length : Option Nat
deriving DecidableEq, Repr

/-- The text of a fault. -/
def Fault.message (f : Fault) : String :=
  match f.length with
  | some n => s!"invalid utf-8 sequence of {n} bytes from index {f.validUpTo}"
  | none => s!"incomplete utf-8 byte sequence from index {f.validUpTo}"

/-- What a lead octet asks for: the number of continuation octets, and the range of the first of
them. -/
def expected (lead : UInt8) : Option (Nat × UInt8 × UInt8) :=
  if 0xC2 ≤ lead ∧ lead ≤ 0xDF then some (1, 0x80, 0xBF)
  else if lead = 0xE0 then some (2, 0xA0, 0xBF)
  else if lead = 0xED then some (2, 0x80, 0x9F)
  else if 0xE1 ≤ lead ∧ lead ≤ 0xEF then some (2, 0x80, 0xBF)
  else if lead = 0xF0 then some (3, 0x90, 0xBF)
  else if lead = 0xF4 then some (3, 0x80, 0x8F)
  else if 0xF1 ≤ lead ∧ lead ≤ 0xF3 then some (3, 0x80, 0xBF)
  else none

/-- The length of the broken sequence when `count` continuation octets, the first of them from
`low` to `high`, are missing from the front of the input; `seen` octets precede them. -/
def brokenTail : (count : Nat) → (low high : UInt8) → (seen : Nat) → Bytes → Option (Option Nat)
  | 0, _, _, _, _ => none
  | _ + 1, _, _, _, [] => some none
  | count + 1, low, high, seen, x :: rest =>
    if low ≤ x ∧ x ≤ high then brokenTail count 0x80 0xBF (seen + 1) rest else some (some seen)

/-- The first fault at or after index `at`, where `skip` octets still belong to a sequence that
was found well formed. -/
def faultFrom : (index skip : Nat) → Bytes → Option Fault
  | _, _, [] => none
  | index, skip + 1, _ :: rest => faultFrom (index + 1) skip rest
  | index, 0, x :: rest =>
    if x < 0x80 then faultFrom (index + 1) 0 rest
    else
      match expected x with
      | none => some ⟨index, some 1⟩
      | some (count, low, high) =>
        match brokenTail count low high 1 rest with
        | some length => some ⟨index, length⟩
        | none => faultFrom (index + 1) count rest

/-- The first fault of the input, if it is not UTF-8. -/
def fault? (b : Bytes) : Option Fault := faultFrom 0 0 b

end Amqp.Utf8
