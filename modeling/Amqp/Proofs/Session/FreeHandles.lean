import Amqp.Session.Basic
import Mathlib.Data.Finset.Card
import Mathlib.Order.Bounds.Basic
import Mathlib.Order.Interval.Finset.Nat

/-!
# Free handles

The next handle of a session is the least positive number that is no local handle, if it stays below
the bound (`freeHandle_eq_ok_iff`).  The same handle is found in one pass over the local handles in
ascending order, with a candidate that moves up (`freeHandle_eq_scanHandle`).  As long as all
handles lie below the bound, it is only missing if all of them are held (`exhausted_iff`).
-/

namespace Amqp

/-! ## The least number that is not used -/

theorem le_firstUnusedWithin (used : List Nat) (candidate steps : Nat) :
    candidate ≤ firstUnusedWithin used candidate steps := by
  induction steps generalizing candidate with
  | zero => exact Nat.le_refl _
  | succ steps ih =>
    rw [firstUnusedWithin]
    split_ifs
    · exact Nat.le_of_succ_le (ih (candidate + 1))
    · exact Nat.le_refl _

theorem mem_of_lt_firstUnusedWithin {used : List Nat} {candidate steps n : Nat}
    (hle : candidate ≤ n) (hlt : n < firstUnusedWithin used candidate steps) : n ∈ used := by
  induction steps generalizing candidate with
  | zero => exact absurd hlt (Nat.not_lt.2 hle)
  | succ steps ih =>
    rw [firstUnusedWithin] at hlt
    split_ifs at hlt with hused
    · rcases Nat.eq_or_lt_of_le hle with rfl | hnext
      · exact List.contains_iff_mem.1 hused
      · exact ih hnext hlt
    · exact absurd hlt (Nat.not_lt.2 hle)

theorem isLeast_firstUnused (used : List Nat) (candidate : Nat) :
    IsLeast {n | candidate ≤ n ∧ n ∉ used} (firstUnused used candidate) := by
  refine ⟨⟨le_firstUnusedWithin _ _ _, firstUnused_notMem used candidate⟩, fun n hn => ?_⟩
  by_contra hlt
  exact hn.2 (mem_of_lt_firstUnusedWithin hn.1 (Nat.not_le.1 hlt))

/-- The number that a pass over numbers in ascending order arrives at: it moves on from each number
it meets, and stops at the first gap. -/
def scanFrom (candidate : Nat) : List Nat → Nat
  | [] => candidate
  | n :: rest =>
    if n = candidate then scanFrom (candidate + 1) rest
    else if candidate < n then candidate
    else scanFrom candidate rest

theorem isLeast_scanFrom {used : List Nat} (h : used.Pairwise (· ≤ ·)) (candidate : Nat) :
    IsLeast {n | candidate ≤ n ∧ n ∉ used} (scanFrom candidate used) := by
  induction used generalizing candidate with
  | nil => exact ⟨⟨Nat.le_refl _, List.not_mem_nil⟩, fun n hn => hn.1⟩
  | cons m rest ih =>
    obtain ⟨hm, hrest⟩ := List.pairwise_cons.1 h
    -- Below the candidate nothing matters, and behind the first gap nothing is small enough.
    have hskip {c : Nat} (hc : ∀ n, candidate ≤ n ∧ n ∉ m :: rest ↔ c ≤ n ∧ n ∉ rest) :
        IsLeast {n | candidate ≤ n ∧ n ∉ m :: rest} (scanFrom c rest) := by
      rw [Set.ext hc]
      exact ih hrest c
    rw [scanFrom]
    split_ifs with heq hgap
    · refine hskip fun n => ?_
      rw [List.mem_cons, not_or]
      constructor
      · rintro ⟨hle, hne, hn⟩
        exact ⟨by omega, hn⟩
      · rintro ⟨hle, hn⟩
        exact ⟨by omega, by omega, hn⟩
    · refine ⟨⟨Nat.le_refl _, fun hmem => ?_⟩, fun n hn => hn.1⟩
      rcases List.mem_cons.1 hmem with rfl | hmem
      · exact Nat.lt_irrefl _ hgap
      · exact absurd (hm _ hmem) (Nat.not_le.2 hgap)
    · refine hskip fun n => ?_
      rw [List.mem_cons, not_or]
      constructor
      · rintro ⟨hle, -, hn⟩
        exact ⟨hle, hn⟩
      · rintro ⟨hle, hn⟩
        exact ⟨hle, by omega, hn⟩

theorem pairwise_insertAscending {α : Type} (e : UInt32 × α) {l : List (UInt32 × α)}
    (h : l.Pairwise fun e e' => e.1 ≤ e'.1) :
    (insertAscending e l).Pairwise fun e e' => e.1 ≤ e'.1 := by
  induction l with
  | nil => exact List.pairwise_singleton _ _
  | cons e' rest ih =>
    obtain ⟨hfirst, hrest⟩ := List.pairwise_cons.1 h
    rw [insertAscending]
    split_ifs with hle
    · refine List.pairwise_cons.2 ⟨fun x hx => ?_, h⟩
      rcases List.mem_cons.1 hx with rfl | hx
      · exact hle
      · exact UInt32.le_trans hle (hfirst x hx)
    · refine List.pairwise_cons.2 ⟨fun x hx => ?_, ih hrest⟩
      rcases (mem_insertAscending e x rest).1 hx with rfl | hx
      · exact UInt32.le_of_lt (UInt32.not_le.1 hle)
      · exact hfirst x hx

theorem Table.pairwise_ascending {α : Type} (t : Table UInt32 α) :
    t.ascending.Pairwise fun e e' => e.1 ≤ e'.1 := by
  unfold ascending
  induction t.entries with
  | nil => exact .nil
  | cons e rest ih => exact pairwise_insertAscending e ih

namespace Session

/-! ## The next handle -/

/-- The positive numbers that are no local handle. -/
def unheld (s : Session) : Set Nat :=
  {n | 1 ≤ n ∧ ∀ handle ∈ s.outputHandles.keys, handle.toNat ≠ n}

/-- Whether all local handles are positive and below a bound. -/
def HandlesBelow (bound : UInt32) (s : Session) : Prop :=
  ∀ handle ∈ s.outputHandles.keys, 0 < handle ∧ handle < bound

/-- Whether all local handles are positive and below the session's own bound. -/
def InRange (s : Session) : Prop := s.HandlesBelow s.handleMax

/-- The local handles in ascending order. -/
def ascendingHandles (s : Session) : List Nat := s.outputHandles.ascending.map (·.1.toNat)

/-- The next handle, found in one pass over the local handles in ascending order. -/
def scanHandle (s : Session) : Except Fault UInt32 :=
  if s.handleMax.toNat ≤ s.outputHandles.size then .error (.handlesExhausted s.handleMax)
  else
    let candidate := scanFrom 1 s.ascendingHandles
    if s.handleMax.toNat ≤ candidate then .error (.handlesExhausted s.handleMax)
    else .ok (UInt32.ofNat candidate)

variable (s : Session)

theorem unheld_eq_notMem_keys :
    s.unheld = {n | 1 ≤ n ∧ n ∉ s.outputHandles.keys.map UInt32.toNat} := by
  ext n
  simp [unheld]

theorem unheld_eq_notMem_ascendingHandles : s.unheld = {n | 1 ≤ n ∧ n ∉ s.ascendingHandles} := by
  have hmem (n : Nat) : n ∈ s.ascendingHandles ↔ n ∈ s.outputHandles.keys.map UInt32.toNat := by
    simp [ascendingHandles, Table.keys, Table.mem_ascending]
  rw [unheld_eq_notMem_keys]
  simp only [hmem]

/-- The least positive number that is no local handle. -/
def leastUnheld : Nat := firstUnused (s.outputHandles.keys.map UInt32.toNat) 1

theorem isLeast_leastUnheld : IsLeast s.unheld s.leastUnheld := by
  rw [unheld_eq_notMem_keys]
  exact isLeast_firstUnused _ 1

theorem leastUnheld_eq_scanFrom : s.leastUnheld = scanFrom 1 s.ascendingHandles := by
  have hsorted : s.ascendingHandles.Pairwise (· ≤ ·) :=
    List.pairwise_map.2 (s.outputHandles.pairwise_ascending.imp UInt32.le_iff_toNat_le.1)
  refine s.isLeast_leastUnheld.unique ?_
  rw [unheld_eq_notMem_ascendingHandles]
  exact isLeast_scanFrom hsorted 1

theorem freeHandle_eq : s.freeHandle =
    if s.handleMax.toNat ≤ s.outputHandles.size ∨ s.handleMax.toNat ≤ s.leastUnheld then
      .error (.handlesExhausted s.handleMax)
    else .ok (UInt32.ofNat s.leastUnheld) := by
  have hsize : (s.outputHandles.keys.map UInt32.toNat).length = s.outputHandles.size := by
    rw [List.length_map]
    exact List.length_map _
  unfold freeHandle
  dsimp only
  rw [hsize]
  rfl

theorem freeHandle_eq_scanHandle : s.freeHandle = s.scanHandle := by
  rw [freeHandle_eq, leastUnheld_eq_scanFrom]
  unfold scanHandle
  dsimp only
  by_cases hsize : s.handleMax.toNat ≤ s.outputHandles.size
  · rw [if_pos (Or.inl hsize), if_pos hsize]
  · rw [if_neg hsize]
    exact if_congr (or_iff_right hsize) rfl rfl

variable {s}

theorem freeHandle_eq_ok_iff {handle : UInt32} : s.freeHandle = .ok handle ↔
    IsLeast s.unheld handle.toNat ∧ handle < s.handleMax ∧
      s.outputHandles.size < s.handleMax.toNat := by
  have hleast := s.isLeast_leastUnheld
  have hmax := s.handleMax.toNat_lt
  rw [freeHandle_eq, UInt32.lt_iff_toNat_lt]
  constructor
  · intro h
    split_ifs at h with hfull
    cases h
    obtain ⟨hroom, hbelow⟩ := not_or.1 hfull
    have hlt := Nat.lt_trans (Nat.not_le.1 hbelow) hmax
    rw [UInt32.toNat_ofNat_of_lt' hlt]
    exact ⟨hleast, Nat.not_le.1 hbelow, Nat.not_le.1 hroom⟩
  · rintro ⟨hhandle, hbelow, hroom⟩
    rw [hleast.unique hhandle, if_neg (by omega), UInt32.ofNat_toNat]

theorem eq_of_freeHandle_eq_error {f : Fault} (h : s.freeHandle = .error f) :
    f = .handlesExhausted s.handleMax := by
  rw [freeHandle_eq] at h
  split_ifs at h
  exact (Except.error.inj h).symm

/-! ## Handles in range -/

theorem size_lt_of_inRange (h : InRange s) (hpos : 0 < s.handleMax) :
    s.outputHandles.size < s.handleMax.toNat := by
  have hpos := UInt32.lt_iff_toNat_lt.1 hpos
  have hnodup : (s.outputHandles.keys.map UInt32.toNat).Nodup :=
    List.Nodup.map (fun _ _ => UInt32.toNat.inj) s.outputHandles.keys_nodup
  have hsubset : (s.outputHandles.keys.map UInt32.toNat).toFinset ⊆
      Finset.Ico 1 s.handleMax.toNat := by
    intro n hn
    obtain ⟨handle, hhandle, rfl⟩ := List.mem_map.1 (List.mem_toFinset.1 hn)
    obtain ⟨hlow, hhigh⟩ := h handle hhandle
    exact Finset.mem_Ico.2 ⟨UInt32.lt_iff_toNat_lt.1 hlow, UInt32.lt_iff_toNat_lt.1 hhigh⟩
  have hcard := Finset.card_le_card hsubset
  rw [List.toFinset_card_of_nodup hnodup, Nat.card_Ico, List.length_map] at hcard
  have hsize : s.outputHandles.keys.length = s.outputHandles.size := List.length_map _
  change 0 < s.handleMax.toNat at hpos
  omega

/-- A session whose handles are in range has a next handle unless it holds all of them. -/
theorem exhausted_iff (h : InRange s) : s.freeHandle = .error (.handlesExhausted s.handleMax) ↔
    ∀ handle, 0 < handle → handle < s.handleMax → handle ∈ s.outputHandles.keys := by
  have hleast := s.isLeast_leastUnheld
  constructor
  · intro herror handle hlow hhigh
    by_contra hfree
    have hunheld : handle.toNat ∈ s.unheld :=
      ⟨UInt32.lt_iff_toNat_lt.1 hlow, fun other hother heq =>
        hfree (UInt32.toNat.inj heq ▸ hother)⟩
    have hle := hleast.2 hunheld
    have hroom := size_lt_of_inRange h (UInt32.lt_trans hlow hhigh)
    have hhigh := UInt32.lt_iff_toNat_lt.1 hhigh
    rw [freeHandle_eq, if_neg (by omega)] at herror
    cases herror
  · intro hall
    rw [freeHandle_eq, if_pos]
    right
    by_contra hbelow
    have hlt := Nat.lt_trans (Nat.not_le.1 hbelow) s.handleMax.toNat_lt
    have htoNat : (UInt32.ofNat s.leastUnheld).toNat = s.leastUnheld :=
      UInt32.toNat_ofNat_of_lt' hlt
    refine hleast.1.2 (UInt32.ofNat s.leastUnheld) (hall _ ?_ ?_) htoNat
    · rw [UInt32.lt_iff_toNat_lt, htoNat]
      exact hleast.1.1
    · rw [UInt32.lt_iff_toNat_lt, htoNat]
      exact Nat.not_le.1 hbelow

/-- No positive handle below the next one is free. -/
theorem freeHandle_le_of_notMem {handle next : UInt32} (h : s.freeHandle = .ok next)
    (hpos : 0 < handle) (hfree : handle ∉ s.outputHandles.keys) : next ≤ handle := by
  refine UInt32.le_iff_toNat_le.2 ((freeHandle_eq_ok_iff.1 h).1.2 ?_)
  exact ⟨UInt32.lt_iff_toNat_lt.1 hpos, fun other hother heq =>
    hfree (UInt32.toNat.inj heq ▸ hother)⟩

theorem exists_freeHandle_of_notMem (h : InRange s) {handle : UInt32} (hpos : 0 < handle)
    (hlt : handle < s.handleMax) (hfree : handle ∉ s.outputHandles.keys) :
    ∃ next, s.freeHandle = .ok next := by
  cases hnext : s.freeHandle with
  | ok next => exact ⟨next, rfl⟩
  | error f =>
    cases eq_of_freeHandle_eq_error hnext
    exact absurd ((exhausted_iff h).1 hnext handle hpos hlt) hfree

end Session

end Amqp
