import Amqp.Composite.Fields
import Amqp.Performative.Decoding
import Amqp.Proofs.Value.Regular
import Mathlib.Tactic.SplitIfs

/-!
# Rules for readers of fields

The fields of a composite are positional, and those missing at the end read as null, so what matters
about a list of fields is what stands at each position (`SameFields`).  `Reads r fields a` says that
the reader `r` takes exactly these fields, in whichever of their spellings, and gives `a`; `Yields r
P` says that whatever `r` gives from regular fields satisfies `P`.  There is one rule for each kind
of field, and composites are read by chaining them.
-/

namespace Amqp

/-! ## Spellings of fields -/

/-- Two lists with the same fields, those beyond the end being null. -/
def SameFields (xs ys : List Value) : Prop := ∀ i, xs.getD i .null = ys.getD i .null

namespace SameFields

variable {xs ys zs : List Value}

theorem refl (xs : List Value) : SameFields xs xs := fun _ => rfl

theorem trans (h : SameFields xs ys) (h' : SameFields ys zs) : SameFields xs zs :=
  fun i => (h i).trans (h' i)

theorem cons (h : SameFields xs ys) (v : Value) : SameFields (v :: xs) (v :: ys) := by
  intro i
  cases i with
  | zero => rfl
  | succ i => simpa using h i

theorem headD_eq (h : SameFields xs ys) : xs.headD .null = ys.headD .null := by
  have h0 := h 0
  cases xs <;> cases ys <;> simp_all

theorem tail (h : SameFields xs ys) : SameFields xs.tail ys.tail := by
  intro i
  have hi := h (i + 1)
  cases xs <;> cases ys
  · rfl
  · simpa using hi
  · simpa using hi
  · simpa using hi

end SameFields

theorem sameFields_append_null (fields : List Value) : SameFields fields (fields ++ [.null]) := by
  induction fields with
  | nil =>
    intro i
    cases i <;> simp
  | cons v fields ih => exact ih.cons v

/-- Nulls at the end need not be written. -/
theorem sameFields_trimNulls (fields : List Value) : SameFields (trimNulls fields) fields := by
  unfold trimNulls
  induction h : fields.reverse generalizing fields with
  | nil => rw [List.reverse_eq_nil_iff.1 h]; exact SameFields.refl _
  | cons v reversed ih =>
    have hfields : fields = reversed.reverse ++ [v] := by
      rw [← List.reverse_reverse fields, h, List.reverse_cons]
    rw [List.dropWhile_cons]
    split_ifs with hnull
    · have hv : v = .null := by cases v <;> first | rfl | cases hnull
      have htrim := ih reversed.reverse (List.reverse_reverse _)
      rw [hfields, hv]
      exact htrim.trans (sameFields_append_null _)
    · rw [hfields, List.reverse_cons]
      exact SameFields.refl _

theorem mem_trimNulls {fields : List Value} {v : Value} (h : v ∈ trimNulls fields) :
    v ∈ fields := by
  unfold trimNulls at h
  rw [List.mem_reverse] at h
  exact List.mem_reverse.1 ((List.dropWhile_sublist _).mem h)

namespace Fields

variable {α β : Type}

/-! ## Reading fields that were written -/

/-- The reader takes exactly the given fields and gives `a`. -/
def Reads (r : Fields α) (fields : List Value) (a : α) : Prop :=
  ∀ name items rest, SameFields items (fields ++ rest) →
    ∃ items', r name items = .ok (a, items') ∧ SameFields items' rest

theorem bind_apply (r : Fields α) (f : α → Fields β) (name : String) (items : List Value) :
    (r >>= f) name items =
      match r name items with
      | .ok (a, rest) => f a name rest
      | .error fault => .error fault := by
  change (StateT.bind (r name) fun a => f a name) items = _
  unfold StateT.bind
  cases r name items <;> rfl

theorem reads_pure (a : α) : Reads (pure a) [] a := fun _ items _ h => ⟨items, rfl, h⟩

theorem Reads.bind {r : Fields α} {f : α → Fields β} {v : Value} {fields : List Value} {a : α}
    {b : β} (hr : Reads r [v] a) (hf : Reads (f a) fields b) :
    Reads (r >>= f) (v :: fields) b := by
  intro name items rest h
  obtain ⟨items', hread, hsame⟩ := hr name items (fields ++ rest) h
  obtain ⟨items'', hread', hsame'⟩ := hf name items' rest hsame
  refine ⟨items'', ?_, hsame'⟩
  rw [bind_apply, hread]
  exact hread'

theorem Reads.map {r : Fields α} {v : Value} {a : α} (hr : Reads r [v] a) (f : α → β) :
    Reads (r >>= fun a => pure (f a)) [v] (f a) :=
  hr.bind (reads_pure (f a))

/-- A reader of one field looks at the first item and leaves the others. -/
theorem reads_of_headD {r : Fields α} {v : Value} {a : α}
    (h : ∀ name items, items.headD .null = v → r name items = .ok (a, items.tail)) :
    Reads r [v] a := by
  intro name items rest hsame
  exact ⟨items.tail, h name items hsame.headD_eq, hsame.tail⟩

theorem reads_optional_none (field : String) (accept : Value → Except Value α) :
    Reads (optional field accept) [.null] none := by
  refine reads_of_headD fun name items hv => ?_
  rw [optional, hv]

theorem reads_optional_some (field : String) (accept : Value → Except Value α) {v : Value} {a : α}
    (hnull : v ≠ .null) (h : accept v = .ok a) : Reads (optional field accept) [v] (some a) := by
  refine reads_of_headD fun name items hv => ?_
  unfold optional
  rw [hv]
  cases v <;> first | exact absurd rfl hnull | (simp only [h])

/-- A field that is written by `toValue` is read by `accept`. -/
def Accepts (accept : Value → Except Value α) (toValue : α → Value) : Prop :=
  ∀ a, toValue a ≠ .null ∧ accept (toValue a) = .ok a

theorem reads_optional (field : String) {accept : Value → Except Value α} {toValue : α → Value}
    (h : Accepts accept toValue) (o : Option α) :
    Reads (optional field accept) [.ofOption toValue o] o := by
  cases o with
  | none => exact reads_optional_none field accept
  | some a => exact reads_optional_some field accept (h a).1 (h a).2

theorem reads_required (field : String) {accept : Value → Except Value α} {toValue : α → Value}
    (h : Accepts accept toValue) (a : α) : Reads (required field accept) [toValue a] a := by
  intro name items rest hsame
  obtain ⟨items', hread, hsame'⟩ := reads_optional field h (some a) name items rest hsame
  refine ⟨items', ?_, hsame'⟩
  rw [required, hread]
  rfl

theorem reads_flag (field : String) (on : Bool) : Reads (flag field) [.ofFlag on] on := by
  cases on with
  | false => exact (reads_optional_none field bool).map fun o => o.getD false
  | true =>
    exact (reads_optional_some field bool (v := .bool true) (by simp) rfl).map
      fun o => o.getD false

/-- A flag may be written in full. -/
theorem reads_flag_bool (field : String) (on : Bool) : Reads (flag field) [.bool on] on :=
  (reads_optional_some field bool (v := .bool on) (by simp) rfl).map
    fun o => o.getD false

theorem reads_nested {ofValue : Value → Except Fault α} {toValue : α → Value} {o : Option α}
    (h : ∀ a, o = some a → toValue a ≠ .null ∧ ofValue (toValue a) = .ok a) :
    Reads (nested ofValue) [.ofOption toValue o] o := by
  refine reads_of_headD fun name items hv => ?_
  unfold nested
  rw [hv]
  cases o with
  | none => rfl
  | some a =>
    obtain ⟨hnull, hof⟩ := h a rfl
    rw [Value.ofOption]
    cases htoValue : toValue a <;>
      first
      | exact absurd htoValue hnull
      | (rw [htoValue] at hof; simp only [hof])

theorem reads_mode (field : String) {ofCode : UInt8 → Except Fault α} {code : α → UInt8}
    (h : ∀ m, ofCode (code m) = .ok m) (o : Option α) :
    Reads (mode field ofCode) [.ofOption (fun m => .ubyte (code m)) o] o := by
  cases o with
  | none => exact (reads_optional_none field ubyte).bind (reads_pure none)
  | some m =>
    refine (reads_optional_some field ubyte (v := .ubyte (code m)) (by simp) rfl).bind ?_
    simp only [h]
    exact reads_pure (some m)

/-! ### Contents -/

theorem accepts_uint : Accepts uint .uint := fun _ => ⟨by simp, rfl⟩

theorem accepts_ushort : Accepts ushort .ushort := fun _ => ⟨by simp, rfl⟩

theorem accepts_ulong : Accepts ulong .ulong := fun _ => ⟨by simp, rfl⟩

theorem accepts_bool : Accepts bool .bool := fun _ => ⟨by simp, rfl⟩

theorem accepts_string : Accepts text .string := fun _ => ⟨by simp, rfl⟩

theorem accepts_symbol : Accepts text .symbol := fun _ => ⟨by simp, rfl⟩

theorem accepts_map : Accepts map .map := fun _ => ⟨by simp, rfl⟩

theorem accepts_binary : Accepts binary .binary := fun _ => ⟨by simp, rfl⟩

theorem symbolNamesOnto_map_symbol (names reversed : List String) :
    symbolNamesOnto (names.map .symbol) reversed = .ok (reversed.reverse ++ names) := by
  induction names generalizing reversed with
  | nil => simp [symbolNamesOnto]
  | cons name names ih =>
    rw [List.map_cons, symbolNamesOnto, ih]
    simp

theorem accepts_symbols : Accepts symbols .symbols := by
  intro names
  refine ⟨by simp [Value.symbols], ?_⟩
  rw [Value.symbols, symbols]
  exact symbolNamesOnto_map_symbol names []

/-! ## Reading regular fields -/

/-- Whatever the reader gives from regular fields satisfies `P`, and it leaves regular fields. -/
def Yields (r : Fields α) (P : α → Prop) : Prop :=
  ∀ name items a items', (∀ v ∈ items, v.IsRegular) → r name items = .ok (a, items') →
    P a ∧ ∀ v ∈ items', v.IsRegular

theorem yields_pure {P : α → Prop} {a : α} (h : P a) : Yields (pure a) P := by
  intro name items a' items' hitems e
  obtain ⟨rfl, rfl⟩ := Prod.mk.inj (Except.ok.inj e)
  exact ⟨h, hitems⟩

theorem Yields.mono {r : Fields α} {P Q : α → Prop} (h : Yields r P) (hPQ : ∀ a, P a → Q a) :
    Yields r Q := by
  intro name items a items' hitems e
  obtain ⟨ha, hitems'⟩ := h name items a items' hitems e
  exact ⟨hPQ a ha, hitems'⟩

theorem Yields.bind {r : Fields α} {f : α → Fields β} {P : α → Prop} {Q : β → Prop}
    (hr : Yields r P) (hf : ∀ a, P a → Yields (f a) Q) : Yields (r >>= f) Q := by
  intro name items b items' hitems e
  rw [bind_apply] at e
  cases h : r name items with
  | error fault => rw [h] at e; cases e
  | ok p =>
    obtain ⟨a, rest⟩ := p
    rw [h] at e
    obtain ⟨ha, hrest⟩ := hr name items a rest hitems h
    exact hf a ha name rest b items' hrest e

theorem yields_fail {P : α → Prop} (f : Fault) : Yields (fail f) P := by
  intro name items a items' hitems e
  cases e

theorem isRegular_headD {items : List Value} (h : ∀ v ∈ items, v.IsRegular) :
    (items.headD .null).IsRegular := by
  cases items with
  | nil => trivial
  | cons v items => exact h v List.mem_cons_self

theorem yields_optional (field : String) {accept : Value → Except Value α} {P : α → Prop}
    (h : ∀ v a, v ≠ .null → v.IsRegular → accept v = .ok a → P a) :
    Yields (optional field accept) fun o => ∀ a, o = some a → P a := by
  intro name items o items' hitems e
  have hhead := isRegular_headD hitems
  have htail : ∀ v ∈ items.tail, v.IsRegular := fun v hv => hitems v (List.mem_of_mem_tail hv)
  unfold optional at e
  split at e
  · obtain ⟨rfl, rfl⟩ : none = o ∧ items.tail = items' := by simpa using e
    exact ⟨fun _ ha => absurd ha (by simp), htail⟩
  · rename_i hnull
    split at e
    · rename_i a haccept
      obtain ⟨rfl, rfl⟩ : some a = o ∧ items.tail = items' := by simpa using e
      refine ⟨fun a' ha => ?_, htail⟩
      rw [← Option.some.inj ha]
      exact h _ a hnull hhead haccept
    · cases e

theorem yields_required (field : String) {accept : Value → Except Value α} {P : α → Prop}
    (h : ∀ v a, v ≠ .null → v.IsRegular → accept v = .ok a → P a) :
    Yields (required field accept) P := by
  intro name items a items' hitems e
  unfold required at e
  cases ho : optional field accept name items with
  | error fault => rw [ho] at e; cases e
  | ok p =>
    obtain ⟨o, rest⟩ := p
    obtain ⟨hP, hrest⟩ := yields_optional field h name items o rest hitems ho
    rw [ho] at e
    cases o with
    | none => cases e
    | some a' =>
      obtain ⟨rfl, rfl⟩ : a' = a ∧ rest = items' := by
        simpa [bind, Except.bind, pure, Except.pure] using e
      exact ⟨hP a' rfl, hrest⟩

theorem yields_nested {ofValue : Value → Except Fault α} {P : α → Prop}
    (h : ∀ v a, v.IsRegular → ofValue v = .ok a → P a) :
    Yields (nested ofValue) fun o => ∀ a, o = some a → P a := by
  intro name items o items' hitems e
  have hhead := isRegular_headD hitems
  have htail : ∀ v ∈ items.tail, v.IsRegular := fun v hv => hitems v (List.mem_of_mem_tail hv)
  unfold nested at e
  split at e
  · obtain ⟨rfl, rfl⟩ : none = o ∧ items.tail = items' := by simpa using e
    exact ⟨fun _ ha => absurd ha (by simp), htail⟩
  · split at e
    · rename_i a hof
      obtain ⟨rfl, rfl⟩ : some a = o ∧ items.tail = items' := by simpa using e
      refine ⟨fun a' ha => ?_, htail⟩
      rw [← Option.some.inj ha]
      exact h _ a hhead hof
    · cases e

/-- The map in a regular field is regular. -/
theorem yields_optional_map (field : String) :
    Yields (optional field map) fun o =>
      ∀ entries, o = some entries → (Value.map entries).IsRegular := by
  refine yields_optional field fun v entries _ hreg haccept => ?_
  cases v <;> cases haccept
  exact hreg

/-! ### Fields without values in them -/

/-- A reader that leaves regular fields when it is given such. -/
abbrev Keeps (r : Fields α) : Prop := Yields r fun _ => True

theorem Keeps.bind {r : Fields α} {f : α → Fields β} {P : β → Prop} (hr : Keeps r)
    (hf : ∀ a, Yields (f a) P) : Yields (r >>= f) P :=
  Yields.bind hr fun a _ => hf a

theorem keeps_optional (field : String) (accept : Value → Except Value α) :
    Keeps (optional field accept) :=
  (yields_optional field fun _ _ _ _ _ => trivial).mono fun _ _ => trivial

theorem keeps_required (field : String) (accept : Value → Except Value α) :
    Keeps (required field accept) :=
  yields_required field fun _ _ _ _ _ => trivial

theorem keeps_flag (field : String) : Keeps (flag field) :=
  (keeps_optional field bool).bind fun _ => yields_pure trivial

theorem keeps_mode (field : String) (ofCode : UInt8 → Except Fault α) :
    Keeps (mode field ofCode) := by
  refine (keeps_optional field ubyte).bind fun o => ?_
  cases o with
  | none => exact yields_pure trivial
  | some code =>
    cases hcode : ofCode code with
    | ok m => simp only [hcode]; exact yields_pure trivial
    | error f => simp only [hcode]; exact yields_fail f

end Fields

/-! ## Composites -/

theorem readComposite_composite {α : Type} (name : String) (code : UInt64) {read : Fields α}
    {fields : List Value} {a : α} (h : Fields.Reads read fields a) :
    readComposite name code read (composite code fields) = .ok a := by
  have hsame : SameFields (trimNulls fields) (fields ++ []) := by
    rw [List.append_nil]
    exact sameFields_trimNulls fields
  obtain ⟨items', hread, -⟩ := h name (trimNulls fields) [] hsame
  unfold readComposite composite Value.describedBy
  simp only [ne_eq, not_true_eq_false, if_false, hread]
  rfl

/-- Whatever is read from a regular composite satisfies what its fields give. -/
theorem of_readComposite {α : Type} {name : String} {code : UInt64} {read : Fields α} {v : Value}
    {a : α} {P : α → Prop} (hread : Fields.Yields read P) (hreg : v.IsRegular)
    (h : readComposite name code read v = .ok a) : P a := by
  unfold readComposite at h
  split at h
  · split_ifs at h
    split at h
    · rename_i items
      have hitems := Value.isRegular_list_iff.1 (Value.isRegular_described_iff.1 hreg).2
      cases hr : read name items with
      | error f => rw [hr] at h; cases h
      | ok p =>
        rw [hr] at h
        obtain rfl : p.1 = a := by simpa [bind, Except.bind, pure, Except.pure] using h
        exact (hread name items p.1 p.2 hitems hr).1
    · cases h
  · cases h
  · cases h

/-- The nulls that are left out do not matter for regularity. -/
theorem isRegular_composite {code : UInt64} {fields : List Value}
    (h : ∀ v ∈ fields, v.IsRegular) : (composite code fields).IsRegular := by
  refine Value.isRegular_described_iff.2 ⟨trivial, Value.isRegular_list_iff.2 fun v hv => ?_⟩
  exact h v (mem_trimNulls hv)

theorem composite_ne_null (code : UInt64) (fields : List Value) :
    composite code fields ≠ .null := by
  simp [composite, Value.describedBy]

end Amqp
