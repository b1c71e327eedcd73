import Amqp.Proofs.Stream.Filling
import Amqp.Transport

/-!
# Reads that can be cut short

A transport has octets before it (`incoming`): those in its buffer and those that its stream is
going to bring.  A read takes octets from the front of them, or it times out or stalls and leaves
all of them.  `ReadSpec` says this of one read, and `ReadSpec.bind` of reads one after another,
where the second one may give back what the first one took.
-/

namespace Amqp.Transport

/-- The octets before a transport. -/
def incoming (t : Transport) : Bytes := t.buffer ++ arriving t.stream.reads

/-- The instant by which all pauses before a transport are over. -/
def latest (t : Transport) : Nat := t.stream.now + pauses t.stream.now t.stream.reads

/-- A connected transport that only meets octets, pauses and interruptions. -/
structure IsReceiving (t : Transport) : Prop where
  isOpen : t.isOpen = true
  isConnected : t.isConnected = true
  soft : ∀ e ∈ t.stream.reads, e.IsSoft

/-- What reads leave as it was. -/
structure Kept (t t' : Transport) : Prop where
  isReceiving : t'.IsReceiving
  maxFrameSize : t'.maxFrameSize = t.maxFrameSize
  readTimeout : t'.readTimeout = t.readTimeout
  horizon : t'.stream.horizon = t.stream.horizon
  now_le : t.stream.now ≤ t'.stream.now

theorem Kept.refl {t : Transport} (h : t.IsReceiving) : Kept t t :=
  ⟨h, rfl, rfl, rfl, Nat.le_refl _⟩

theorem Kept.trans {t t₁ t₂ : Transport} (h : Kept t t₁) (h' : Kept t₁ t₂) : Kept t t₂ :=
  ⟨h'.isReceiving, h'.maxFrameSize.trans h.maxFrameSize, h'.readTimeout.trans h.readTimeout,
    h'.horizon.trans h.horizon, Nat.le_trans h.now_le h'.now_le⟩

/-! ## What a read does -/

/-- What a read that begins at `t` does: it gives something of which `P` holds, or it times out or
stalls with `before` before it again.  When `before` has the `needed` octets, a timeout makes
progress and the read only stalls when the pauses reach beyond the observed time. -/
def ReadSpec {α : Type} (wait : Option Nat) (needed : Nat) (before : Bytes) (t : Transport)
    (P : α → Transport → Prop) : EStateM.Result Halt Transport α → Prop
  | .ok a t' =>
    Kept t t' ∧ P a t' ∧ t'.latest ≤ t.latest ∧
      ∀ n, workload n t'.stream.reads ≤ workload n t.stream.reads
  | .error (.fault f) t' =>
    Kept t t' ∧ f = .timeout ∧ t'.incoming = before ∧
      (needed ≤ before.length → t'.latest ≤ t.latest ∧
        ∀ n ≤ t.stream.now,
          (∀ timeout, (wait <|> t.readTimeout) = some timeout → n < t.stream.now + timeout) →
          workload t'.stream.now t'.stream.reads < workload n t.stream.reads)
  | .error .stalled t' =>
    Kept t t' ∧ t'.incoming = before ∧ (needed ≤ before.length → t.stream.horizon < t.latest)

section

variable {α β : Type} {wait : Option Nat} {needed : Nat} {before : Bytes} {t : Transport}
  {P : α → Transport → Prop} {Q : β → Transport → Prop}

theorem readSpec_pure (ht : t.IsReceiving) {a : α} (h : P a t) :
    ReadSpec wait needed before t P (.ok a t) :=
  ⟨Kept.refl ht, h, Nat.le_refl _, fun _ => Nat.le_refl _⟩

theorem ReadSpec.mono {P' : α → Transport → Prop} {needed' : Nat}
    {r : EStateM.Result Halt Transport α} (h : ReadSpec wait needed before t P r)
    (hneeded : needed ≤ needed') (hP : ∀ a t', Kept t t' → P a t' → P' a t') :
    ReadSpec wait needed' before t P' r := by
  match r, h with
  | .ok a t', ⟨hkept, ha, hrest⟩ => exact ⟨hkept, hP a t' hkept ha, hrest⟩
  | .error (.fault f) t', ⟨hkept, hf, hbefore, hprogress⟩ =>
    exact ⟨hkept, hf, hbefore, fun henough => hprogress (Nat.le_trans hneeded henough)⟩
  | .error .stalled t', ⟨hkept, hbefore, hstall⟩ =>
    exact ⟨hkept, hbefore, fun henough => hstall (Nat.le_trans hneeded henough)⟩

/-- One read after another one: neither loses what is before them. -/
theorem ReadSpec.bind {x : Action Transport α} {f : α → Action Transport β}
    (hx : ReadSpec wait needed before t P (x t))
    (hf : ∀ a t', Kept t t' → P a t' → ReadSpec wait needed before t' Q (f a t')) :
    ReadSpec wait needed before t Q ((x >>= f) t) := by
  cases hresult : x t with
  | error halt t₁ =>
    rw [hresult] at hx
    rw [Action.bind_of_error hresult]
    cases halt <;> exact hx
  | ok a t₁ =>
    rw [hresult] at hx
    rw [Action.bind_of_ok hresult]
    obtain ⟨hkept, ha, hlatest, hwork⟩ := hx
    have hnow := hkept.now_le
    have hnext := hf a t₁ hkept ha
    match f a t₁, hnext with
    | .ok b t₂, ⟨hkept', hb, hlatest', hwork'⟩ =>
      exact ⟨hkept.trans hkept', hb, Nat.le_trans hlatest' hlatest,
        fun n => Nat.le_trans (hwork' n) (hwork n)⟩
    | .error (.fault f) t₂, ⟨hkept', hfault, hbefore, hprogress⟩ =>
      refine ⟨hkept.trans hkept', hfault, hbefore, fun henough => ?_⟩
      obtain ⟨hlatest', hless⟩ := hprogress henough
      refine ⟨Nat.le_trans hlatest' hlatest, fun n hn hlater => ?_⟩
      refine Nat.lt_of_lt_of_le
        (hless n (Nat.le_trans hn hnow) fun timeout htimeout => ?_) (hwork n)
      rw [hkept.readTimeout] at htimeout
      have hn := hlater timeout htimeout
      omega
    | .error .stalled t₂, ⟨hkept', hbefore, hstall⟩ =>
      refine ⟨hkept.trans hkept', hbefore, fun henough => ?_⟩
      have hhorizon := hstall henough
      rw [hkept.horizon] at hhorizon
      exact Nat.lt_of_lt_of_le hhorizon hlatest

/-- What runs out of time leaves the transport connected. -/
theorem ReadSpec.watched {x : Action Transport α} (h : ReadSpec wait needed before t P (x t)) :
    ReadSpec wait needed before t P (watched x t) := by
  unfold Transport.watched
  match x t, h with
  | .ok _ _, h => exact h
  | .error .stalled _, h => exact h
  | .error (.fault f) t', ⟨hkept, hf, hrest⟩ =>
    subst hf
    exact ⟨hkept, rfl, hrest⟩

end

/-! ## Reading a number of octets -/

/-- A read of a number of octets takes them from the front. -/
theorem take_spec (size : Nat) (initial : Bool) (wait : Option Nat) {t : Transport}
    (ht : t.IsReceiving) :
    ReadSpec wait size t.incoming t
      (fun b t' => b.length = size ∧ b ++ t'.incoming = t.incoming)
      (take size initial wait t) := by
  unfold take
  dsimp only
  split_ifs with hbuffered hopen
  · have hbuffer : t.buffer.take size ++ t.buffer.drop size = t.buffer := List.take_append_drop _ _
    refine ⟨⟨⟨ht.isOpen, ht.isConnected, ht.soft⟩, rfl, rfl, rfl, Nat.le_refl _⟩,
      ⟨hbuffered, ?_⟩, Nat.le_refl _, fun _ => Nat.le_refl _⟩
    rw [incoming, incoming, ← List.append_assoc, hbuffer]
  · rw [ht.isOpen] at hopen
    cases hopen
  · -- the buffer is shorter than what is wanted, so all of it is taken
    have hshort : t.buffer.length < size := by
      rw [List.length_take] at hbuffered
      omega
    rw [List.take_of_length_le (Nat.le_of_lt hshort), List.drop_of_length_le (Nat.le_of_lt hshort)]
    have hdeadline : ∀ instant, (wait <|> t.readTimeout).map (t.stream.now + ·) = some instant →
        t.stream.now ≤ instant := by
      intro instant h
      obtain ⟨timeout, -, rfl⟩ := Option.map_eq_some_iff.1 h
      exact Nat.le_add_right _ _
    have hmissing : 0 < size - t.buffer.length := by omega
    have hfill := ReadPolicy.fills ⟨wait <|> t.readTimeout, initial && t.toleratesInterrupt⟩
      t.stream.horizon ht.soft false t.buffer hmissing hdeadline
    unfold ReadPolicy.deadline
    dsimp only
    generalize fill _ _ _ _ _ _ _ _ = f at hfill ⊢
    obtain ⟨result, octets, now, rest⟩ := f
    have hkept : ∀ buffer, Kept t
        { t with stream := { t.stream with now, reads := rest }, buffer } := fun _ =>
      ⟨⟨ht.isOpen, ht.isConnected, hfill.soft⟩, rfl, rfl, rfl, hfill.now_le⟩
    have hkeeps : octets ++ arriving rest = t.incoming := hfill.keeps
    have henough : size ≤ t.incoming.length →
        size - t.buffer.length ≤ (arriving t.stream.reads).length := by
      rw [incoming, List.length_append]
      omega
    match result with
    | .ok () =>
      obtain ⟨hlength, hwork⟩ := hfill.ok rfl
      have hsize : octets.length = size := by
        dsimp only at hlength
        omega
      have hmore := congrArg List.length hkeeps
      rw [List.length_append, hsize] at hmore
      exact ⟨hkept [], ⟨hsize, hkeeps⟩, hfill.budget (henough (by omega)), hwork⟩
    | .error (some f) =>
      refine ⟨hkept _, hfill.fault f rfl, ?_, fun hmore => ⟨hfill.budget (henough hmore), ?_⟩⟩
      · rwa [incoming, List.append_nil]
      · intro n hn hlater
        refine hfill.progress ⟨f, rfl⟩ (henough hmore) n hn fun instant hinstant => ?_
        obtain ⟨timeout, htimeout, rfl⟩ := Option.map_eq_some_iff.1 hinstant
        exact hlater timeout htimeout
    | .error none =>
      refine ⟨hkept _, ?_, fun hmore => hfill.stall rfl (henough hmore)⟩
      rwa [incoming, List.append_nil]

/-! ## Reading in pieces -/

/-- A read that puts octets in front of the buffer when it fails. -/
def restoring {α : Type} (read : Bytes) (x : Action Transport α) : Action Transport α := fun t =>
  match x t with
  | .ok a t => .ok a t
  | .error halt t => .error halt { t with buffer := read ++ t.buffer }

theorem ReadSpec.restoring {α : Type} {wait : Option Nat} {needed : Nat} {before : Bytes}
    {t : Transport} {P : α → Transport → Prop} {x : Action Transport α}
    (h : ReadSpec wait needed before t P (x t)) (read : Bytes) :
    ReadSpec wait (read.length + needed) (read ++ before) t P (restoring read x t) := by
  have hincoming : ∀ t' : Transport, t'.incoming = before →
      incoming { t' with buffer := read ++ t'.buffer } = read ++ before := by
    rintro t' rfl
    exact List.append_assoc _ _ _
  have henough : read.length + needed ≤ (read ++ before).length → needed ≤ before.length := by
    rw [List.length_append]
    omega
  have hkept : ∀ t' : Transport, Kept t t' → Kept t { t' with buffer := read ++ t'.buffer } :=
    fun t' h => ⟨⟨h.isReceiving.isOpen, h.isReceiving.isConnected, h.isReceiving.soft⟩,
      h.maxFrameSize, h.readTimeout, h.horizon, h.now_le⟩
  unfold Transport.restoring
  match x t, h with
  | .ok _ _, h => exact h
  | .error (.fault f) t', ⟨hk, hf, hbefore, hprogress⟩ =>
    exact ⟨hkept t' hk, hf, hincoming t' hbefore, fun hmore => hprogress (henough hmore)⟩
  | .error .stalled t', ⟨hk, hbefore, hstall⟩ =>
    exact ⟨hkept t' hk, hincoming t' hbefore, fun hmore => hstall (henough hmore)⟩

theorem takePieces_zero (ceiling : Nat) (wait : Option Nat) (fuel : Nat) (read : Bytes)
    (t : Transport) : takePieces ceiling wait fuel 0 read t = .ok read t := by
  cases fuel <;> rfl

theorem takePieces_succ (ceiling : Nat) (wait : Option Nat) (fuel : Nat) {missing : Nat}
    (read : Bytes) (t : Transport) (h : missing ≠ 0) :
    takePieces ceiling wait (fuel + 1) missing read t =
      (restoring read (take (min ceiling missing) false wait) >>= fun piece =>
        takePieces ceiling wait fuel (missing - min ceiling missing) (read ++ piece)) t := by
  change (if missing = 0 then _ else _) = EStateM.bind _ _ t
  rw [if_neg h]
  unfold EStateM.bind restoring
  dsimp only
  cases take (min ceiling missing) false wait t <;> rfl

/-- A read in pieces takes what is missing from the front, or puts back all that was read. -/
theorem takePieces_spec {ceiling : Nat} (hceiling : 0 < ceiling) (wait : Option Nat)
    {fuel missing : Nat} (hfuel : missing ≤ fuel) (read : Bytes) {t : Transport}
    (ht : t.IsReceiving) :
    ReadSpec wait (read.length + missing) (read ++ t.incoming) t
      (fun b t' => b.length = read.length + missing ∧ b ++ t'.incoming = read ++ t.incoming)
      (takePieces ceiling wait fuel missing read t) := by
  induction fuel generalizing missing read t with
  | zero => exact readSpec_pure ht ⟨by omega, rfl⟩
  | succ fuel ih =>
    by_cases hmissing : missing = 0
    · subst hmissing
      rw [takePieces_zero]
      exact readSpec_pure ht ⟨rfl, rfl⟩
    · rw [takePieces_succ ceiling wait fuel read t hmissing]
      have htake := (take_spec (min ceiling missing) false wait ht).restoring read
      have hneeded : read.length + min ceiling missing ≤ read.length + missing := by omega
      refine (htake.mono hneeded fun _ _ _ h => h).bind ?_
      rintro piece t' hkept ⟨hlength, hpiece⟩
      have hleft : missing - min ceiling missing ≤ fuel := by omega
      have hrest := ih hleft (read ++ piece) hkept.isReceiving
      have hsize : (read ++ piece).length + (missing - min ceiling missing) =
          read.length + missing := by
        rw [List.length_append, hlength]
        omega
      have hbefore : read ++ piece ++ t'.incoming = read ++ t.incoming := by
        rw [List.append_assoc, hpiece]
      rwa [hsize, hbefore] at hrest

end Amqp.Transport
