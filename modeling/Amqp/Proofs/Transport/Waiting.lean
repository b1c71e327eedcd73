import Amqp.Proofs.Transport.Reading

/-!
# How often receiving can run out of time

A call of `receive` that gives nothing has used up an event of the stream or a part of the observed
time.  So there are only so many `occasions` for it: none of the calls makes them more, and one that
gives nothing makes them fewer (`wearsOut_receive`).
-/

namespace Amqp

/-! ## Runs of reads -/

/-- What a run of reads leaves that began at `start`, has come to `now`, and has `reads` before it:
no more events than there were, and fewer ones or a later time if it has timed out. -/
structure Wears (horizon start now : Nat) (reads : List ReadEvent) (f : Filled) : Prop where
  now_le : now ≤ f.now
  rest_le : f.rest.length ≤ reads.length
  timedOut : f.result = .error (some .timeout) →
    f.rest.length < reads.length ∨ start < f.now ∧ f.now ≤ horizon

namespace Wears

variable {horizon start now : Nat} {reads rest : List ReadEvent} {f : Filled}

/-- A run that goes on behind an event. -/
theorem cons {later : Nat} (h : Wears horizon start later reads f) (hnow : now ≤ later)
    (e : ReadEvent) : Wears horizon start now (e :: reads) f :=
  ⟨Nat.le_trans hnow h.now_le, Nat.le_succ_of_le h.rest_le,
    fun htimeout => (h.timedOut htimeout).imp_left Nat.lt_succ_of_lt⟩

theorem of_ne {result : StreamResult} (hresult : result ≠ .error (some .timeout)) (octets : Bytes)
    (hrest : rest.length ≤ reads.length) :
    Wears horizon start now reads ⟨result, octets, now, rest⟩ :=
  ⟨Nat.le_refl now, hrest, fun h => absurd h hresult⟩

theorem expire {deadline : Option Nat}
    (hdeadline : ∀ instant, deadline = some instant → start < instant ∧ now ≤ instant)
    (octets : Bytes) (hrest : rest.length ≤ reads.length) :
    Wears horizon start now reads (expire horizon deadline octets now rest) := by
  unfold Amqp.expire
  rcases expiry_cases horizon deadline now with ⟨limit, hlimit, hhorizon, h⟩ | h
  · obtain ⟨hstart, hnow⟩ := hdeadline limit hlimit
    rw [h]
    exact ⟨hnow, hrest, fun _ => Or.inr ⟨hstart, hhorizon⟩⟩
  · rw [h]
    exact .of_ne (by simp) octets hrest

theorem deadline_spec {o : ReadPolicy}
    (hpositive : ∀ timeout, o.timeout = some timeout → 0 < timeout)
    (hstart : start ≤ now) :
    ∀ instant, o.deadline now = some instant → start < instant ∧ now ≤ instant := by
  intro instant hinstant
  obtain ⟨timeout, htimeout, rfl⟩ := Option.map_eq_some_iff.1 hinstant
  have hpos := hpositive timeout htimeout
  omega

/-- Every run of reads whose single reads are given some time. -/
theorem fill {o : ReadPolicy} (hpositive : ∀ timeout, o.timeout = some timeout → 0 < timeout)
    {missing : Nat} {deadline : Option Nat} {interrupted : Bool} {octets : Bytes}
    (hstart : start ≤ now)
    (hdeadline : ∀ instant, deadline = some instant → start < instant ∧ now ≤ instant) :
    Wears horizon start now reads
      (fill o horizon missing deadline interrupted octets now reads) := by
  induction reads generalizing missing deadline interrupted octets now with
  | nil => exact .expire hdeadline octets (Nat.le_refl _)
  | cons e reads ih =>
    have hlater (instant : Nat) (hinstant : now ≤ instant)
        (hlate : ¬deadline.any (fun limit => limit < instant) = true) (missing : Nat)
        (interrupted : Bool) (octets : Bytes) (e : ReadEvent) :
        Wears horizon start now (e :: reads)
          (Amqp.fill o horizon missing deadline interrupted octets instant reads) := by
      refine (ih (Nat.le_trans hstart hinstant) fun limit hlimit => ?_).cons hinstant e
      subst hlimit
      have hle : instant ≤ limit := by simpa using hlate
      exact ⟨(hdeadline limit rfl).1, hle⟩
    have hagain (missing : Nat) (interrupted : Bool) (octets : Bytes) (e : ReadEvent) :
        Wears horizon start now (e :: reads)
          (Amqp.fill o horizon missing (o.deadline now) interrupted octets now reads) :=
      (ih hstart (deadline_spec hpositive hstart)).cons (Nat.le_refl now) e
    have hquiet (instant : Nat) (e : ReadEvent) :
        (ReadEvent.quietUntil instant :: reads).length ≤ (e :: reads).length := Nat.le_refl _
    cases e with
    | octets b =>
      rw [Amqp.fill]
      split_ifs
      · exact .of_ne (by simp) octets (Nat.le_succ _)
      · exact .of_ne (by simp) _ (Nat.le_refl _)
      · exact .of_ne (by simp) _ (Nat.le_succ _)
      · exact hagain _ _ _ _
    | fault cause =>
      have hstop : Wears horizon start now (.fault cause :: reads)
          ⟨.error (some .timeout), octets, now, reads⟩ :=
        ⟨Nat.le_refl now, Nat.le_succ _, fun _ => Or.inl (Nat.lt_succ_self _)⟩
      rw [Amqp.fill.eq_def]
      cases cause with
      | interrupted | wouldBlock =>
        dsimp only
        split_ifs
        · exact hstop
        · exact hagain _ _ _ _
        · exact hagain _ _ _ _
      | timedOut => exact hstop
      | _ => exact .of_ne (by simp) octets (Nat.le_succ _)
    | ended =>
      rw [Amqp.fill]
      exact .of_ne (by simp) octets (Nat.le_refl _)
    | delay milliseconds =>
      rw [Amqp.fill]
      split_ifs with hlate hhorizon
      · exact .expire hdeadline octets (hquiet _ _)
      · exact hlater _ (Nat.le_add_right _ _) hlate _ _ _ _
      · exact .of_ne (by simp) octets (hquiet _ _)
    | quietUntil instant =>
      rw [Amqp.fill]
      split_ifs with hpast hlate hhorizon
      · exact (ih hstart hdeadline).cons (Nat.le_refl now) _
      · exact .expire hdeadline octets (hquiet _ _)
      · exact hlater _ (by omega) hlate _ _ _ _
      · exact .of_ne (by simp) octets (hquiet _ _)

end Wears

namespace Transport

variable {α β : Type} {t : Transport} {wait : Nat}

/-- How often receiving can still run out of time, at most. -/
def occasions (t : Transport) : Nat :=
  t.stream.horizon + 1 - t.stream.now + t.stream.reads.length

/-- What an action leaves of the occasions: no more than there were, and fewer ones if it has timed
out. -/
def WearsOut (t : Transport) : EStateM.Result Halt Transport α → Prop
  | .ok _ t' => t'.occasions ≤ t.occasions
  | .error halt t' =>
    t'.occasions ≤ t.occasions ∧ (halt = .fault .timeout → t'.occasions < t.occasions)

theorem WearsOut.bind {x : Action Transport α} {f : α → Action Transport β}
    (hx : WearsOut t (x t)) (hf : ∀ a t', x t = .ok a t' → WearsOut t' (f a t')) :
    WearsOut t ((x >>= f) t) := by
  cases hresult : x t with
  | error halt t' =>
    rw [hresult] at hx
    rw [Action.bind_of_error hresult]
    exact hx
  | ok a t' =>
    rw [hresult] at hx
    rw [Action.bind_of_ok hresult]
    have hrest := hf a t' hresult
    match f a t', hrest with
    | .ok b t'', hrest => exact Nat.le_trans hrest hx
    | .error halt t'', ⟨hle, htimeout⟩ =>
      exact ⟨Nat.le_trans hle hx, fun h => Nat.lt_of_lt_of_le (htimeout h) hx⟩

theorem wearsOut_pure (a : α) : WearsOut t ((pure a : Action Transport α) t) := Nat.le_refl _

theorem wearsOut_raise {f : Fault} (hf : f ≠ .timeout) :
    WearsOut t ((Action.raise f : Action Transport α) t) :=
  ⟨Nat.le_refl _, fun h => absurd (Halt.fault.inj h) hf⟩

theorem wearsOut_ofExcept {result : Except Fault α} (h : result ≠ .error .timeout) :
    WearsOut t (Action.ofExcept result t) := by
  cases result with
  | ok a => exact wearsOut_pure a
  | error f => exact wearsOut_raise fun hf => h (congrArg Except.error hf)

/-! ## Reading -/

theorem wearsOut_take (hwait : 0 < wait) (size : Nat) (initial : Bool) (t : Transport) :
    WearsOut t (take size initial (some wait) t) := by
  unfold take
  dsimp only
  split_ifs
  · exact Nat.le_refl _
  · exact ⟨Nat.le_refl _, fun h => by cases h⟩
  · have hpositive : ∀ timeout, (some wait <|> t.readTimeout) = some timeout → 0 < timeout := by
      intro timeout htimeout
      cases htimeout
      exact hwait
    generalize hf : fill _ _ _ _ _ _ _ _ = f
    have hwears : Wears t.stream.horizon t.stream.now t.stream.now t.stream.reads f := by
      rw [← hf]
      exact .fill hpositive (Nat.le_refl _) (Wears.deadline_spec hpositive (Nat.le_refl _))
    obtain ⟨result, octets, now, rest⟩ := f
    obtain ⟨hnow, hrest, htimedOut⟩ := hwears
    unfold WearsOut occasions
    match result with
    | .ok () =>
      dsimp only at hnow hrest ⊢
      omega
    | .error none =>
      refine ⟨?_, fun h => by cases h⟩
      dsimp only at hnow hrest ⊢
      omega
    | .error (some f) =>
      refine ⟨?_, fun h => ?_⟩
      · dsimp only at hnow hrest ⊢
        omega
      · cases h
        have hless := htimedOut rfl
        dsimp only at hnow hrest hless ⊢
        omega

theorem WearsOut.restoring {x : Action Transport α} (hx : WearsOut t (x t)) (read : Bytes) :
    WearsOut t (restoring read x t) := by
  unfold Transport.restoring
  match x t, hx with
  | .ok _ _, hx => exact hx
  | .error _ _, hx => exact hx

theorem WearsOut.watched {x : Action Transport α} (hx : WearsOut t (x t)) :
    WearsOut t (watched x t) := by
  unfold Transport.watched
  match x t, hx with
  | .ok _ _, hx => exact hx
  | .error .stalled _, hx => exact hx
  | .error (.fault f) t', hx =>
    dsimp only
    split_ifs <;> exact hx

theorem wearsOut_takePieces (hwait : 0 < wait) (ceiling fuel missing : Nat) (read : Bytes)
    (t : Transport) : WearsOut t (takePieces ceiling (some wait) fuel missing read t) := by
  induction fuel generalizing missing read t with
  | zero => exact wearsOut_pure read
  | succ fuel ih =>
    by_cases hmissing : missing = 0
    · subst hmissing
      rw [takePieces_zero]
      exact wearsOut_pure read
    · rw [takePieces_succ ceiling (some wait) fuel read t hmissing]
      exact ((wearsOut_take hwait _ _ t).restoring read).bind fun piece t' _ => ih _ _ t'

theorem ofBytes_ne_timeout (raw : Bytes) : FrameHeader.ofBytes raw ≠ .error .timeout := by
  unfold FrameHeader.ofBytes
  split <;> simp

theorem extendedLength_ne_timeout (header : FrameHeader) :
    header.extendedLength ≠ .error .timeout := by
  unfold FrameHeader.extendedLength
  dsimp only
  split_ifs <;> simp

theorem wearsOut_takeFrame (hwait : 0 < wait) (ceiling : Nat) (t : Transport) :
    WearsOut t (takeFrame ceiling (some wait) t) := by
  refine (wearsOut_take hwait _ _ t).bind fun raw t₁ _ =>
    (wearsOut_ofExcept (ofBytes_ne_timeout raw)).bind fun header t₂ _ => ?_
  rw [Action.get_bind]
  dsimp only
  split
  · exact wearsOut_raise (by simp)
  split
  · exact wearsOut_pure _
  split
  · exact wearsOut_raise (by simp)
  · exact (wearsOut_ofExcept (extendedLength_ne_timeout header)).bind fun skip t₃ _ =>
      (wearsOut_takePieces hwait _ _ _ _ t₃).bind fun _ _ _ => wearsOut_pure _

/-- Receiving leaves no more occasions than there were, and fewer ones if it gives nothing. -/
theorem wearsOut_receive (hwait : 0 < wait) {got : Option (UInt16 × Frame)} {t' : Transport}
    (h : receive (some wait) t = .ok got t') :
    t'.occasions ≤ t.occasions ∧ (got = none → t'.occasions < t.occasions) := by
  have hraw : WearsOut t (readRaw (some wait) t) :=
    (wearsOut_takeFrame hwait readCeiling t).watched.bind fun _ _ _ => wearsOut_pure _
  unfold receive at h
  match hresult : readRaw (some wait) t, hraw with
  | .ok (raw, channel, body) t₁, hraw =>
    rw [hresult] at h
    dsimp only at h
    cases hdecode : decodeBody raw body with
    | error f =>
      rw [hdecode] at h
      cases h
    | ok frame =>
      rw [hdecode] at h
      cases h
      exact ⟨hraw, fun hnone => by cases hnone⟩
  | .error (.fault f) t₁, ⟨hle, htimeout⟩ =>
    rw [hresult] at h
    cases f with
    | timeout =>
      cases h
      exact ⟨hle, fun _ => htimeout rfl⟩
    | _ => cases h
  | .error .stalled t₁, _ =>
    rw [hresult] at h
    cases h

end Transport

end Amqp
