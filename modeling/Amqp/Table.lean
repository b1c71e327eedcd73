/-!
# Tables

A table binds values to distinct keys and keeps its entries in the order in which the keys came in.
`get?` looks a key up; `insert`, `erase`, `filter` and `mapValues` give the changed table, and the
lemmas say what each of them does to `get?`.
-/

namespace Amqp

/-- Values under distinct keys. -/
structure Table (κ α : Type) where
  entries : List (κ × α) := []
  keys_nodup : (entries.map Prod.fst).Nodup := by simp

namespace Table

variable {κ α β : Type}

instance : EmptyCollection (Table κ α) := ⟨⟨[], by simp⟩⟩

instance : Inhabited (Table κ α) := ⟨∅⟩

/-- The keys in the order in which they came in. -/
def keys (t : Table κ α) : List κ := t.entries.map Prod.fst

/-- The values in the order of their keys. -/
def values (t : Table κ α) : List α := t.entries.map Prod.snd

/-- The number of entries. -/
def size (t : Table κ α) : Nat := t.entries.length

/-- The entries that satisfy a condition. -/
def filter (p : κ → α → Bool) (t : Table κ α) : Table κ α where
  entries := t.entries.filter fun e => p e.1 e.2
  keys_nodup := t.keys_nodup.sublist (List.filter_sublist.map _)

/-- The table with every value changed. -/
def mapValues (f : α → β) (t : Table κ α) : Table κ β where
  entries := t.entries.map fun e => (e.1, f e.2)
  keys_nodup := by
    have h : (t.entries.map fun e => (e.1, f e.2)).map Prod.fst = t.entries.map Prod.fst := by simp
    rw [h]; exact t.keys_nodup

variable [DecidableEq κ]

/-- The value under a key. -/
def get? (t : Table κ α) (k : κ) : Option α := (t.entries.find? fun e => e.1 = k).map Prod.snd

/-- Whether a key is bound. -/
def contains (t : Table κ α) (k : κ) : Bool := t.entries.any fun e => e.1 = k

/-- The table without a key. -/
def erase (t : Table κ α) (k : κ) : Table κ α := t.filter fun k' _ => k' ≠ k

/-- Binds a key: in place if the key is bound already, else at the end. -/
def insert (t : Table κ α) (k : κ) (a : α) : Table κ α :=
  if h : t.contains k then
    { entries := t.entries.map fun e => if e.1 = k then (k, a) else e
      keys_nodup := by
        have same : (t.entries.map fun e => if e.1 = k then (k, a) else e).map Prod.fst =
            t.entries.map Prod.fst := by
          rw [List.map_map]
          refine List.map_congr_left fun e _ => ?_
          by_cases hk : e.1 = k <;> simp [hk]
        rw [same]; exact t.keys_nodup }
  else
    { entries := t.entries ++ [(k, a)]
      keys_nodup := by
        have absent : ∀ e ∈ t.entries, e.1 ≠ k := fun e he hk =>
          h (List.any_eq_true.2 ⟨e, he, by simpa using hk⟩)
        rw [List.map_append, List.nodup_append]
        refine ⟨t.keys_nodup, by simp, ?_⟩
        intro x hx y hy
        obtain ⟨e, he, rfl⟩ := List.mem_map.1 hx
        simp only [List.map_cons, List.map_nil, List.mem_singleton] at hy
        exact hy ▸ absent e he }

/-! ## Look-up -/

theorem contains_eq_isSome (t : Table κ α) (k : κ) : t.contains k = (t.get? k).isSome := by
  rw [contains, get?, Option.isSome_map, List.isSome_find?]

theorem contains_of_get? {t : Table κ α} {k : κ} {a : α} (h : t.get? k = some a) :
    t.contains k = true := by
  rw [contains_eq_isSome, h]
  rfl

theorem contains_of_get?_eq_none {t : Table κ α} {k : κ} (h : t.get? k = none) :
    t.contains k = false := by
  rw [contains_eq_isSome, h]
  rfl

@[simp] theorem get?_empty (k : κ) : (∅ : Table κ α).get? k = none := rfl

theorem mem_entries_of_get? {t : Table κ α} {k : κ} {a : α} (h : t.get? k = some a) :
    (k, a) ∈ t.entries := by
  obtain ⟨e, he, rfl⟩ := Option.map_eq_some_iff.1 h
  have hk : e.1 = k := by simpa using List.find?_some he
  exact hk ▸ List.mem_of_find?_eq_some he

theorem get?_eq_some_iff {t : Table κ α} {k : κ} {a : α} :
    t.get? k = some a ↔ (k, a) ∈ t.entries := by
  refine ⟨mem_entries_of_get?, fun h => ?_⟩
  obtain ⟨entries, nodup⟩ := t
  simp only [get?] at h ⊢
  induction entries with
  | nil => simp at h
  | cons e entries ih =>
    simp only [List.map_cons, List.nodup_cons] at nodup
    rcases List.mem_cons.1 h with rfl | h
    · simp
    · have hk : e.1 ≠ k := fun hk => nodup.1 (hk ▸ List.mem_map.2 ⟨(k, a), h, rfl⟩)
      rw [List.find?_cons_of_neg (by simpa using hk)]
      exact ih nodup.2 h

theorem get?_eq_none_iff {t : Table κ α} {k : κ} : t.get? k = none ↔ k ∉ t.keys := by
  simp only [get?, Option.map_eq_none_iff, List.find?_eq_none, keys, List.mem_map, not_exists,
    not_and]
  simp

theorem mem_keys_iff {t : Table κ α} {k : κ} : k ∈ t.keys ↔ ∃ a, t.get? k = some a := by
  rw [← Option.isSome_iff_exists, Option.isSome_iff_ne_none, Ne, get?_eq_none_iff,
    Decidable.not_not]

theorem get?_filter (t : Table κ α) (p : κ → α → Bool) (k : κ) :
    (t.filter p).get? k = (t.get? k).filter (p k) := by
  refine Option.ext fun a => ?_
  rw [get?_eq_some_iff, Option.filter_eq_some_iff, get?_eq_some_iff]
  simp [filter]

theorem get?_erase (t : Table κ α) (k k' : κ) :
    (t.erase k).get? k' = if k' = k then none else t.get? k' := by
  rw [erase, get?_filter]
  by_cases h : k' = k
  · simp [h]
  · cases t.get? k' <;> simp [h]

theorem get?_insert (t : Table κ α) (k k' : κ) (a : α) :
    (t.insert k a).get? k' = if k' = k then some a else t.get? k' := by
  refine Option.ext fun b => ?_
  rw [get?_eq_some_iff, insert]
  by_cases h : t.contains k
  · simp only [h, ↓reduceDIte, List.mem_map]
    by_cases hk : k' = k
    · subst hk
      obtain ⟨e, he, hek⟩ : ∃ e ∈ t.entries, e.1 = k' := by simpa [contains] using h
      simp only [↓reduceIte, Option.some.injEq]
      refine ⟨?_, fun hb => ⟨e, he, by simp [hek, hb]⟩⟩
      rintro ⟨e', -, he'⟩
      by_cases hk' : e'.1 = k'
      · simpa [hk'] using he'
      · rw [if_neg hk'] at he'; exact absurd (congrArg Prod.fst he') hk'
    · rw [if_neg hk, get?_eq_some_iff]
      refine ⟨?_, fun hb => ⟨(k', b), hb, by simp [hk]⟩⟩
      rintro ⟨e, he, heq⟩
      by_cases hek : e.1 = k
      · rw [if_pos hek] at heq; exact absurd (congrArg Prod.fst heq).symm hk
      · rw [if_neg hek] at heq; exact heq ▸ he
  · simp only [h, Bool.false_eq_true, ↓reduceDIte, List.mem_append, List.mem_singleton,
      Prod.mk.injEq]
    by_cases hk : k' = k
    · subst hk
      have absent : (k', b) ∉ t.entries := fun hb =>
        h (by simpa [contains] using ⟨b, hb⟩)
      simp [absent, eq_comm]
    · simp [hk, get?_eq_some_iff]

omit [DecidableEq κ] in
@[simp] theorem keys_mapValues (t : Table κ α) (f : α → β) : (t.mapValues f).keys = t.keys := by
  simp [keys, mapValues]

theorem get?_mapValues (t : Table κ α) (f : α → β) (k : κ) :
    (t.mapValues f).get? k = (t.get? k).map f := by
  simp only [get?, mapValues, List.find?_map, Option.map_map]
  rfl

omit [DecidableEq κ] in
theorem mapValues_eq_self {f : α → α} (h : ∀ a, f a = a) (t : Table κ α) :
    t.mapValues f = t := by
  obtain ⟨entries, nodup⟩ := t
  unfold mapValues
  simp [h]

end Table

/-! ## Ascending order -/

/-- Puts an entry in front of the first one with a greater key. -/
def insertAscending {α : Type} (e : UInt32 × α) : List (UInt32 × α) → List (UInt32 × α)
  | [] => [e]
  | e' :: rest => if e.1 ≤ e'.1 then e :: e' :: rest else e' :: insertAscending e rest

/-- The entries by ascending key. -/
def Table.ascending {α : Type} (t : Table UInt32 α) : List (UInt32 × α) :=
  t.entries.foldr insertAscending []

theorem mem_insertAscending {α : Type} (e x : UInt32 × α) (l : List (UInt32 × α)) :
    x ∈ insertAscending e l ↔ x = e ∨ x ∈ l := by
  induction l with
  | nil => simp [insertAscending]
  | cons e' rest ih =>
    rw [insertAscending]
    split
    · simp
    · simp only [List.mem_cons, ih]
      exact or_left_comm

theorem Table.mem_ascending {α : Type} (t : Table UInt32 α) (x : UInt32 × α) :
    x ∈ t.ascending ↔ x ∈ t.entries := by
  unfold ascending
  induction t.entries with
  | nil => simp
  | cons e rest ih => rw [List.foldr_cons, mem_insertAscending, ih, List.mem_cons]

/-! ## Free numbers -/

/-- The least number from `candidate` on that is not used, among the first `steps + 1`. -/
def firstUnusedWithin (used : List Nat) (candidate : Nat) : (steps : Nat) → Nat
  | 0 => candidate
  | steps + 1 =>
    if used.contains candidate then firstUnusedWithin used (candidate + 1) steps else candidate

/-- The least number from `candidate` on that is not used: among as many numbers as are used and one
more there is a free one. -/
def firstUnused (used : List Nat) (candidate : Nat) : Nat :=
  firstUnusedWithin used candidate used.length

theorem length_filter_succ_lt {used : List Nat} {candidate : Nat} (h : candidate ∈ used) :
    (used.filter (candidate + 1 ≤ ·)).length < (used.filter (candidate ≤ ·)).length := by
  have hfilter : used.filter (candidate + 1 ≤ ·) =
      (used.filter (candidate ≤ ·)).filter (candidate + 1 ≤ ·) := by
    rw [List.filter_filter]
    refine List.filter_congr fun n _ => ?_
    have hiff : candidate + 1 ≤ n ↔ candidate + 1 ≤ n ∧ candidate ≤ n := by omega
    simpa using hiff
  rw [hfilter]
  refine List.length_filter_lt_length_iff_exists.2 ⟨candidate, ?_, by simp⟩
  exact List.mem_filter.2 ⟨h, by simp⟩

/-- The search succeeds if it has a step for every number in use from the candidate on. -/
theorem firstUnusedWithin_notMem {used : List Nat} {candidate steps : Nat}
    (h : (used.filter (candidate ≤ ·)).length ≤ steps) :
    firstUnusedWithin used candidate steps ∉ used := by
  induction steps generalizing candidate with
  | zero =>
    rw [firstUnusedWithin]
    intro hmem
    have hlt := length_filter_succ_lt hmem
    omega
  | succ steps ih =>
    rw [firstUnusedWithin]
    split
    · rename_i hcontains
      have hlt := length_filter_succ_lt (List.contains_iff_mem.1 hcontains)
      exact ih (by omega)
    · rename_i hcontains
      exact fun hmem => hcontains (List.contains_iff_mem.2 hmem)

theorem firstUnused_notMem (used : List Nat) (candidate : Nat) :
    firstUnused used candidate ∉ used :=
  firstUnusedWithin_notMem (List.length_filter_le _ _)

end Amqp
