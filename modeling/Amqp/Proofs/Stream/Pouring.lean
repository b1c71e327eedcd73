import Amqp.Stream
import Mathlib.Tactic.SplitIfs

/-!
# Runs of writes

A run of writes goes from event to event until all data are taken, a fault or the deadline ends it,
or the observed time is over.  `PourRun` has one rule for each way in which a run can go on or end,
and every run is one of these (`pourRun_pour`).  So a run takes a front part of its data, whatever
the stream does (`exists_prefix_pour`), and all of them if it ends well (`flatten_taken_pour`).
-/

namespace Amqp

/-- How a run of writes goes, from the pieces taken, the time, the data and the events to what the
run leaves. -/
inductive PourRun (deadline : Option Nat) :
    List Bytes → Nat → Bytes → List WriteEvent → Poured → Prop
  | unscripted (taken : List Bytes) (now : Nat) (data : Bytes) :
      PourRun deadline taken now data [] ⟨.ok (), data :: taken, now, []⟩
  | done (taken : List Bytes) (now : Nat) (writes : List WriteEvent) :
      PourRun deadline taken now [] writes ⟨.ok (), taken, now, writes⟩
  | accepted {taken : List Bytes} {now : Nat} {data : Bytes} {count : Nat}
      {writes : List WriteEvent} {p : Poured}
      (h : PourRun deadline (data.take count :: taken) now (data.drop count) writes p) :
      PourRun deadline taken now data (.accept count :: writes) p
  | waited {taken : List Bytes} {now later : Nat} {data : Bytes} {instant : Nat}
      {writes : List WriteEvent} {p : Poured} (hnow : now ≤ later)
      (hdeadline : ∀ limit, deadline = some limit → now ≤ limit → later ≤ limit)
      (h : PourRun deadline taken later data writes p) :
      PourRun deadline taken now data (.quietUntil instant :: writes) p
  | failed {taken : List Bytes} {now : Nat} {data : Bytes} {e : WriteEvent}
      {writes : List WriteEvent} (cause : StreamFault) :
      PourRun deadline taken now data (e :: writes)
        ⟨.error (some (.stream cause)), taken, now, writes⟩
  | timedOut {taken : List Bytes} {now limit : Nat} {data : Bytes} {writes : List WriteEvent}
      (hdeadline : deadline = some limit) :
      PourRun deadline taken now data writes ⟨.error (some .timeout), taken, limit, writes⟩
  | stalled {taken : List Bytes} {now : Nat} {data : Bytes} {writes : List WriteEvent} :
      PourRun deadline taken now data writes ⟨.error none, taken, now, writes⟩

theorem pourRun_giveUp (horizon : Nat) (deadline : Option Nat) (taken : List Bytes) (now : Nat)
    (data : Bytes) (writes : List WriteEvent) :
    PourRun deadline taken now data writes (giveUp horizon deadline taken now writes) := by
  unfold giveUp
  rcases expiry_cases horizon deadline now with ⟨limit, hdeadline, -, h⟩ | h
  · rw [h]
    exact .timedOut hdeadline
  · rw [h]
    exact .stalled

/-- Every run of writes. -/
theorem pourRun_pour (horizon : Nat) (deadline : Option Nat) (taken : List Bytes) (now : Nat)
    (data : Bytes) (writes : List WriteEvent) :
    PourRun deadline taken now data writes (pour horizon deadline taken now data writes) := by
  induction writes generalizing taken now data with
  | nil =>
    rw [pour]
    exact .unscripted taken now data
  | cons e writes ih =>
    rw [pour.eq_def]
    dsimp only
    split_ifs with hempty
    · rw [List.isEmpty_iff.1 hempty]
      exact .done taken now _
    · cases e with
      | accept count =>
        dsimp only
        split_ifs
        · exact .failed .writeZero
        · exact .accepted (ih _ now _)
      | fault cause => exact .failed cause
      | quietUntil instant =>
        dsimp only
        split_ifs with hpast hlate
        · exact .waited (Nat.le_refl now) (fun _ _ h => h) (ih taken now data)
        · exact pourRun_giveUp horizon deadline taken now data _
        · refine .waited (Nat.le_of_not_le hpast) (fun limit hlimit _ => ?_) (ih taken instant data)
          rw [hlimit] at hlate
          simpa using hlate
        · exact .stalled
      | pending => exact pourRun_giveUp horizon deadline taken now data _

/-- What a run of writes has taken of its data is a front part of them. -/
theorem exists_prefix_pour (horizon : Nat) (deadline : Option Nat) (taken : List Bytes) (now : Nat)
    (data : Bytes) (writes : List WriteEvent) :
    ∃ front, front <+: data ∧
      (pour horizon deadline taken now data writes).taken.reverse.flatten =
        taken.reverse.flatten ++ front := by
  have hrun := pourRun_pour horizon deadline taken now data writes
  generalize pour horizon deadline taken now data writes = p at hrun ⊢
  induction hrun with
  | unscripted taken now data => exact ⟨data, List.prefix_rfl, by simp⟩
  | @accepted taken now data count writes p _ ih =>
    obtain ⟨front, hfront, htaken⟩ := ih
    refine ⟨data.take count ++ front, ?_, ?_⟩
    · have hwhole := (List.prefix_append_right_inj (data.take count)).2 hfront
      rwa [List.take_append_drop] at hwhole
    · rw [htaken, List.reverse_cons, List.flatten_append, List.flatten_singleton, List.append_assoc]
  | waited _ _ _ ih => exact ih
  | _ => exact ⟨[], List.nil_prefix, (List.append_nil _).symm⟩

/-- A run of writes that ends well has delivered all of its data. -/
theorem flatten_taken_pour (horizon : Nat) (deadline : Option Nat) (taken : List Bytes) (now : Nat)
    (data : Bytes) (writes : List WriteEvent)
    (h : (pour horizon deadline taken now data writes).result = .ok ()) :
    (pour horizon deadline taken now data writes).taken.reverse.flatten =
      taken.reverse.flatten ++ data := by
  have hrun := pourRun_pour horizon deadline taken now data writes
  generalize pour horizon deadline taken now data writes = p at h hrun ⊢
  induction hrun with
  | unscripted taken now data => simp
  | done taken now writes => exact (List.append_nil _).symm
  | accepted _ ih =>
    rw [ih h, List.reverse_cons, List.flatten_append, List.flatten_singleton, List.append_assoc,
      List.take_append_drop]
  | waited _ _ _ ih => exact ih h
  | failed cause => cases h
  | timedOut _ => cases h
  | stalled => cases h

/-- Without a deadline a run of writes does not time out. -/
theorem result_pour_ne_timeout (horizon : Nat) (taken : List Bytes) (now : Nat) (data : Bytes)
    (writes : List WriteEvent) :
    (pour horizon none taken now data writes).result ≠ .error (some .timeout) := by
  have hrun := pourRun_pour horizon none taken now data writes
  generalize pour horizon none taken now data writes = p at hrun ⊢
  induction hrun with
  | accepted _ ih => exact ih
  | waited _ _ _ ih => exact ih
  | timedOut hdeadline => cases hdeadline
  | _ => simp

/-- No fault of a run of writes concerns a session only. -/
theorem isSessionLocal_of_pour (horizon : Nat) (deadline : Option Nat) (taken : List Bytes)
    (now : Nat) (data : Bytes) (writes : List WriteEvent) {f : Fault}
    (h : (pour horizon deadline taken now data writes).result = .error (some f)) :
    f.isSessionLocal = false := by
  have hrun := pourRun_pour horizon deadline taken now data writes
  generalize pour horizon deadline taken now data writes = p at h hrun
  induction hrun with
  | accepted _ ih => exact ih h
  | waited _ _ _ ih => exact ih h
  | failed cause =>
    cases h
    rfl
  | timedOut _ =>
    cases h
    rfl
  | _ => cases h

/-- Writing takes time, if anything. -/
theorem now_le_now_pour (horizon : Nat) (deadline : Option Nat) (taken : List Bytes) {now : Nat}
    (hdeadline : ∀ limit, deadline = some limit → now ≤ limit) (data : Bytes)
    (writes : List WriteEvent) : now ≤ (pour horizon deadline taken now data writes).now := by
  have hrun := pourRun_pour horizon deadline taken now data writes
  generalize pour horizon deadline taken now data writes = p at hrun ⊢
  induction hrun with
  | accepted _ ih => exact ih hdeadline
  | waited hnow hlater _ ih =>
    exact Nat.le_trans hnow (ih fun limit hlimit => hlater limit hlimit (hdeadline limit hlimit))
  | timedOut hlimit => exact hdeadline _ hlimit
  | _ => exact Nat.le_refl _

/-! ## Streams that take everything -/

/-- Whether the stream takes something of every write that meets an event. -/
def WriteEvent.Succeeds : WriteEvent → Prop
  | accept count => 0 < count
  | _ => False

theorem pour_of_succeeds {writes : List WriteEvent} (h : ∀ e ∈ writes, e.Succeeds) (horizon : Nat)
    (deadline : Option Nat) (taken : List Bytes) (now : Nat) (data : Bytes) :
    (pour horizon deadline taken now data writes).result = .ok () ∧
      (pour horizon deadline taken now data writes).now = now ∧
      ∀ e ∈ (pour horizon deadline taken now data writes).rest, e.Succeeds := by
  induction writes generalizing taken data with
  | nil => exact ⟨rfl, rfl, h⟩
  | cons e writes ih =>
    obtain ⟨he, hwrites⟩ := List.forall_mem_cons.1 h
    rw [pour.eq_def]
    dsimp only
    split_ifs
    · exact ⟨rfl, rfl, h⟩
    · cases e with
      | accept count =>
        dsimp only
        rw [if_neg (Nat.ne_of_gt he)]
        exact ih hwrites _ _
      | _ => exact absurd he id

end Amqp
