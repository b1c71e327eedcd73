import Amqp.Proofs.Transport.Delivery

/-!
# Writes that can be cut short

A stream can take a part of what is written and then fail, or take nothing more until the write has
timed out.  A fault ends the connected state, but a timeout does not: a buffer that was cut short by
a timeout stays behind torn, the transport still counts as connected (`connected_of_tornClose`), and
further buffers go out behind it once the stream takes octets again.  `Account` says what calls have
left on the stream, buffer by buffer.  Where no timeout has torn a buffer, a connected transport has
taken whole buffers only (`tookWhole_of_attemptAll`).
-/

namespace Amqp

namespace Transport

/-! ## One call -/

/-- A call that writes: octets as they are, or a frame. -/
inductive WriteCall where
  | write (data : Bytes)
  | send (channel : UInt16) (frame : Frame)

namespace WriteCall

/-- The buffer that a call writes. -/
def data : WriteCall → Bytes
  | write data => data
  | send channel frame => frame.encode channel

/-- What a transport does upon a call. -/
def perform : WriteCall → Action Transport Unit
  | write data => Transport.write data
  | send channel frame => Transport.send channel frame

theorem perform_eq (call : WriteCall) : call.perform = Transport.write call.data := by
  cases call <;> rfl

end WriteCall

/-- How a call that writes came out: its buffer, how many octets of it the stream has taken, and the
fault if there was one. -/
structure Attempt where
  data : Bytes
  taken : Nat
  fault : Option Fault

namespace Attempt

/-- The octets of the buffer that the stream has taken. -/
def octets (a : Attempt) : Bytes := a.data.take a.taken

/-- Whether the call has run out of time. -/
def isTimedOut (a : Attempt) : Bool := a.fault.any Fault.isTimeout

/-- Whether the call has ended well or has run out of time. -/
def isTolerated (a : Attempt) : Bool := a.fault.all Fault.isTimeout

/-- Whether the stream has taken a part of the buffer only. -/
def isTorn (a : Attempt) : Bool := 0 < a.taken && a.taken < a.data.length

/-- A buffer that is not torn has been taken as a whole, or not at all. -/
theorem octets_of_not_isTorn {a : Attempt} (h : a.isTorn = false) :
    a.octets = a.data ∨ a.octets = [] := by
  unfold isTorn at h
  unfold octets
  simp only [Bool.and_eq_false_iff, decide_eq_false_iff_not, Nat.not_lt, Nat.le_zero] at h
  rcases h with hnone | hwhole
  · rw [hnone]
    exact Or.inr List.take_zero
  · exact Or.inl (List.take_of_length_le hwhole)

end Attempt

/-- Makes a call and tells how it came out.  A call that stalls never returns. -/
def attempt (call : WriteCall) : Action Transport Attempt := fun t =>
  match call.perform t with
  | .ok _ t' => .ok ⟨call.data, t'.stream.written.length - t.stream.written.length, none⟩ t'
  | .error (.fault f) t' =>
    .ok ⟨call.data, t'.stream.written.length - t.stream.written.length, some f⟩ t'
  | .error .stalled t' => .error .stalled t'

/-- What a call leaves when it returns.  The stream has taken a front part of the buffer, and all of
it unless there was a fault.  The connected state is kept exactly if the call has ended well or has
run out of time. -/
structure AttemptSpec (call : WriteCall) (t : Transport) (a : Attempt) (t' : Transport) : Prop where
  data : a.data = call.data
  taken_le : a.taken ≤ a.data.length
  whole : a.fault = none → a.taken = a.data.length
  written : t'.stream.written = t.stream.written ++ a.octets
  isOpen : t'.isOpen = t.isOpen
  closed : t.isOpen = false → a.taken = 0 ∧ t' = t
  connected : t.isOpen = true → t'.isConnected = (t.isConnected && a.isTolerated)
  writeTimeout : t'.writeTimeout = t.writeTimeout
  timed : a.isTimedOut = true → t.writeTimeout ≠ none

theorem attempt_of_not_isOpen {t : Transport} (h : t.isOpen = false) (call : WriteCall) :
    attempt call t = .ok ⟨call.data, 0, some (.closed .transportClosed)⟩ t := by
  unfold attempt
  rw [call.perform_eq, write_of_not_isOpen h]
  dsimp only
  rw [Nat.sub_self]

/-- A call over a stream, by what the stream makes of the write. -/
theorem attemptSpec_of_poured {call : WriteCall} {t t' : Transport} {fault : Option Fault}
    (hopen : t.isOpen = true) (hopen' : t'.isOpen = true)
    (htaken : t'.stream.taken = (t.poured call.data).taken)
    (hwhole : fault = none → (t.poured call.data).result = .ok ())
    (hconnected : t'.isConnected = (t.isConnected && fault.all Fault.isTimeout))
    (htimeout : t'.writeTimeout = t.writeTimeout)
    (htimed : fault.any Fault.isTimeout = true → t.writeTimeout ≠ none) :
    AttemptSpec call t
      ⟨call.data, t'.stream.written.length - t.stream.written.length, fault⟩ t' := by
  obtain ⟨front, hprefix, hfront⟩ := exists_prefix_pour t.stream.horizon
    (t.writeTimeout.map (t.stream.now + ·)) t.stream.taken t.stream.now call.data t.stream.writes
  have hwritten : t'.stream.written = t.stream.written ++ front :=
    (congrArg (fun taken => taken.reverse.flatten) htaken).trans hfront
  have hlength : t'.stream.written.length - t.stream.written.length = front.length := by
    rw [hwritten, List.length_append, Nat.add_sub_cancel_left]
  rw [hlength]
  refine ⟨rfl, hprefix.length_le, fun h => ?_, ?_, hopen'.trans hopen.symm, fun h => ?_,
    fun _ => hconnected, htimeout, htimed⟩
  · have hall := flatten_taken_pour _ _ _ _ _ _ (hwhole h)
    rw [List.append_cancel_left (hfront.symm.trans hall)]
  · rw [hwritten]
    exact congrArg _ (List.prefix_iff_eq_take.1 hprefix)
  · cases hopen.symm.trans h

theorem attempt_spec {call : WriteCall} {t t' : Transport} {a : Attempt}
    (h : attempt call t = .ok a t') : AttemptSpec call t a t' := by
  cases hopen : t.isOpen with
  | false =>
    rw [attempt_of_not_isOpen hopen] at h
    cases h
    refine ⟨rfl, Nat.zero_le _, nofun, (List.append_nil _).symm, rfl, fun _ => ⟨rfl, rfl⟩,
      fun h => ?_, rfl, nofun⟩
    cases hopen.symm.trans h
  | true =>
    unfold attempt at h
    rw [call.perform_eq] at h
    have hspec := write_spec call.data t
    generalize write call.data t = r at hspec h
    cases hspec with
    | closed hclosed => cases hopen.symm.trans hclosed
    | done hok =>
      cases h
      exact attemptSpec_of_poured hopen hopen rfl (fun _ => hok) (Bool.and_true _).symm rfl nofun
    | stalled _ => cases h
    | failed f hresult =>
      cases htimeout : f.isTimeout with
      | false =>
        rw [htimeout] at h
        cases h
        refine attemptSpec_of_poured hopen hopen rfl nofun ?_ rfl fun h => ?_
        · rw [Option.all_some, htimeout, Bool.and_false]
          rfl
        · cases htimeout.symm.trans h
      | true =>
        rw [htimeout] at h
        cases h
        refine attemptSpec_of_poured hopen hopen rfl nofun ?_ rfl fun _ hnone => ?_
        · rw [Option.all_some, htimeout, Bool.and_true]
          rfl
        · have hf : f = .timeout := by
            cases f <;> first | rfl | cases htimeout
          unfold poured at hresult
          rw [hnone, hf] at hresult
          exact result_pour_ne_timeout _ _ _ _ _ hresult

/-! ## Calls one after another -/

/-- Makes calls one after another, whatever comes of each. -/
def attemptAll : List WriteCall → Action Transport (List Attempt)
  | [] => pure []
  | call :: calls => do
    let a ← attempt call
    return a :: (← attemptAll calls)

theorem attemptAll_cons {call : WriteCall} {calls : List WriteCall} {t t' : Transport}
    {attempts : List Attempt} (h : attemptAll (call :: calls) t = .ok attempts t') :
    ∃ a t₁ rest, attempt call t = .ok a t₁ ∧ attemptAll calls t₁ = .ok rest t' ∧
      attempts = a :: rest := by
  rw [attemptAll] at h
  cases ha : attempt call t with
  | error halt t₁ =>
    rw [Action.bind_of_error ha] at h
    cases h
  | ok a t₁ =>
    rw [Action.bind_of_ok ha] at h
    cases hrest : attemptAll calls t₁ with
    | error halt t₂ =>
      rw [Action.bind_of_error hrest] at h
      cases h
    | ok rest t₂ =>
      rw [Action.bind_of_ok hrest] at h
      cases h
      exact ⟨a, t₁, rest, rfl, hrest, rfl⟩

/-- What is on the stream after calls, buffer by buffer: of each as much as its call tells, and part
of a buffer on a connected transport only where the call has run out of time.  A transport that has
a stream keeps the connected state exactly if every call has ended well or has run out of time. -/
structure Account (calls : List WriteCall) (t : Transport) (attempts : List Attempt)
    (t' : Transport) : Prop where
  data : attempts.map Attempt.data = calls.map WriteCall.data
  taken_le : ∀ a ∈ attempts, a.taken ≤ a.data.length
  whole : ∀ a ∈ attempts, a.fault = none → a.taken = a.data.length
  written : t'.stream.written = t.stream.written ++ attempts.flatMap Attempt.octets
  torn : t'.isConnected = true → ∀ a ∈ attempts, a.isTorn = true → a.isTimedOut = true
  connected : t.isOpen = true →
    t'.isConnected = (t.isConnected && attempts.all Attempt.isTolerated)
  closed : t.isOpen = false → t'.isConnected = t.isConnected
  timed : t.writeTimeout = none → ∀ a ∈ attempts, a.isTimedOut = false

namespace AttemptSpec

variable {call : WriteCall} {t t' : Transport} {a : Attempt}

/-- A fault that has torn the buffer ends the connected state, unless it is a timeout. -/
theorem isTimedOut_of_isTorn (h : AttemptSpec call t a t') (hconnected : t'.isConnected = true)
    (htorn : a.isTorn = true) : a.isTimedOut = true := by
  obtain ⟨hsome, hless⟩ := Bool.and_eq_true_iff.1 htorn
  cases hopen : t.isOpen with
  | false => exact absurd (h.closed hopen).1 (Nat.ne_of_gt (of_decide_eq_true hsome))
  | true =>
    rw [h.connected hopen] at hconnected
    have htolerated : a.fault.all Fault.isTimeout = true := (Bool.and_eq_true_iff.1 hconnected).2
    unfold Attempt.isTimedOut
    cases hfault : a.fault with
    | none => exact absurd (h.whole hfault) (Nat.ne_of_lt (of_decide_eq_true hless))
    | some f =>
      rw [hfault] at htolerated
      exact htolerated

end AttemptSpec

namespace Account

variable {call : WriteCall} {calls : List WriteCall} {t t₁ t' : Transport} {a : Attempt}
  {attempts : List Attempt}

theorem nil (t : Transport) : Account [] t [] t :=
  ⟨rfl, List.forall_mem_nil _, List.forall_mem_nil _, (List.append_nil _).symm,
    fun _ => List.forall_mem_nil _, fun _ => (Bool.and_true _).symm, fun _ => rfl,
    fun _ => List.forall_mem_nil _⟩

/-- Calls do not connect a transport. -/
theorem isConnected_of (h : Account calls t attempts t') (hconnected : t'.isConnected = true) :
    t.isConnected = true := by
  cases hopen : t.isOpen with
  | false => exact h.closed hopen ▸ hconnected
  | true =>
    rw [h.connected hopen] at hconnected
    exact (Bool.and_eq_true_iff.1 hconnected).1

theorem cons (hfirst : AttemptSpec call t a t₁) (h : Account calls t₁ attempts t') :
    Account (call :: calls) t (a :: attempts) t' := by
  refine ⟨?_, ?_, ?_, ?_, fun hc => ?_, fun hopen => ?_, fun hopen => ?_, fun hnone => ?_⟩
  · rw [List.map_cons, List.map_cons, hfirst.data, h.data]
  · exact List.forall_mem_cons.2 ⟨hfirst.taken_le, h.taken_le⟩
  · exact List.forall_mem_cons.2 ⟨hfirst.whole, h.whole⟩
  · rw [h.written, hfirst.written, List.flatMap_cons, List.append_assoc]
  · exact List.forall_mem_cons.2 ⟨hfirst.isTimedOut_of_isTorn (h.isConnected_of hc), h.torn hc⟩
  · rw [h.connected (hfirst.isOpen.trans hopen), hfirst.connected hopen, List.all_cons,
      Bool.and_assoc]
  · rw [h.closed (hfirst.isOpen.trans hopen), (hfirst.closed hopen).2]
  · refine List.forall_mem_cons.2 ⟨?_, h.timed (hfirst.writeTimeout.trans hnone)⟩
    exact Bool.eq_false_iff.2 fun ha => hfirst.timed ha hnone

end Account

/-- Calls made one after another, from any transport. -/
theorem account_of_attemptAll {calls : List WriteCall} {t t' : Transport} {attempts : List Attempt}
    (h : attemptAll calls t = .ok attempts t') : Account calls t attempts t' := by
  induction calls generalizing t attempts with
  | nil =>
    cases h
    exact .nil _
  | cons call calls ih =>
    obtain ⟨a, t₁, rest, ha, hrest, rfl⟩ := attemptAll_cons h
    exact .cons (attempt_spec ha) (ih hrest)

/-! ## Whole buffers -/

/-- Whether the octets that a stream has taken since an earlier time are whole buffers of calls. -/
def TookWhole (calls : List WriteCall) (t t' : Transport) : Prop :=
  ∃ done : List Bytes, done.Sublist (calls.map WriteCall.data) ∧
    t'.stream.written = t.stream.written ++ done.flatten

/-- Buffers that have been taken as a whole or not at all. -/
theorem exists_sublist_octets {attempts : List Attempt}
    (h : ∀ a ∈ attempts, a.octets = a.data ∨ a.octets = []) :
    ∃ done : List Bytes, done.Sublist (attempts.map Attempt.data) ∧
      attempts.flatMap Attempt.octets = done.flatten := by
  induction attempts with
  | nil => exact ⟨[], .slnil, rfl⟩
  | cons a attempts ih =>
    obtain ⟨ha, hattempts⟩ := List.forall_mem_cons.1 h
    obtain ⟨done, hdone, hoctets⟩ := ih hattempts
    rw [List.flatMap_cons, hoctets]
    rcases ha with hwhole | hnone
    · exact ⟨a.data :: done, hdone.cons_cons _, by rw [hwhole, List.flatten_cons]⟩
    · exact ⟨done, hdone.cons _, by rw [hnone, List.nil_append]⟩

theorem Account.tookWhole {calls : List WriteCall} {t t' : Transport} {attempts : List Attempt}
    (h : Account calls t attempts t') (htorn : ∀ a ∈ attempts, a.isTorn = false) :
    TookWhole calls t t' := by
  obtain ⟨done, hdone, hoctets⟩ :=
    exists_sublist_octets fun a ha => Attempt.octets_of_not_isTorn (htorn a ha)
  exact ⟨done, h.data ▸ hdone, hoctets ▸ h.written⟩

/-- Calls that write leave a front part of each buffer on the stream, cut short by a timeout only if
the transport still counts as connected.  It has taken whole buffers only, if there is no write
timeout, or no call that timed out has left its buffer torn. -/
theorem tookWhole_of_attemptAll {calls : List WriteCall} {t t' : Transport}
    {attempts : List Attempt} (h : attemptAll calls t = .ok attempts t') :
    Account calls t attempts t' ∧
      (t'.isConnected = true →
        (t.writeTimeout = none ∨ ∀ a ∈ attempts, a.isTimedOut = true → a.isTorn = false) →
          TookWhole calls t t') := by
  have haccount := account_of_attemptAll h
  refine ⟨haccount, fun hconnected hwhole => haccount.tookWhole fun a ha => ?_⟩
  refine Bool.eq_false_iff.2 fun htorn => ?_
  have htimed := haccount.torn hconnected a ha htorn
  rcases hwhole with hnone | hwhole
  · cases (haccount.timed hnone a ha).symm.trans htimed
  · cases (hwhole a ha htimed).symm.trans htorn

/-- A transport over a stream that takes what it is told to. -/
def overWrites (writes : List WriteEvent) (writeTimeout : Option Nat) : Transport where
  host := ""
  port := 0
  tls := none
  readTimeout := none
  writeTimeout := writeTimeout
  toleratesInterrupt := true
  stream := { horizon := 1000, writes }
  isOpen := true
  isConnected := true

/-- A heartbeat is taken in two parts, a Close meets a stream that takes nothing until it has timed
out, and another one is taken as a whole. -/
theorem tookWhole_of_timedOutClose :
    let t := overWrites [.accept 3, .accept 9, .quietUntil 30] (some 20)
    let close := .send 0 (.performative (.close {}))
    let calls := [.send 0 .heartbeat, close, close]
    ∃ attempts t', attemptAll calls t = .ok attempts t' ∧
      attempts.map Attempt.isTimedOut = [false, true, false] ∧
      attempts.map Attempt.taken = [8, 0, 12] ∧ t'.isConnected = true ∧ TookWhole calls t t' := by
  intro t close calls
  have hmade : attemptAll calls t =
      .ok [⟨_, 8, none⟩, ⟨_, 0, some .timeout⟩, ⟨_, 12, none⟩]
        { t with
          stream :=
            { now := 30
              horizon := 1000
              taken := [[0, 0, 0, 12, 2, 0, 0, 0, 0, 83, 24, 69], [8, 2, 0, 0, 0], [0, 0, 0]] } } :=
    rfl
  exact ⟨_, _, hmade, rfl, rfl, rfl,
    (tookWhole_of_attemptAll hmade).2 rfl (Or.inr (by decide +kernel))⟩

/-- Five octets of a Close are taken before the write times out, and the transport still counts as
connected. -/
theorem connected_of_tornClose :
    let t := overWrites [.accept 5, .pending] (some 20)
    let calls := [.send 0 (.performative (.close {}))]
    ∃ attempts t', attemptAll calls t = .ok attempts t' ∧ t'.isConnected = true ∧
      ¬ TookWhole calls t t' := by
  intro t calls
  have hmade : attemptAll calls t =
      .ok [⟨_, 5, some .timeout⟩]
        { t with
          stream :=
            { now := 20, horizon := 1000, writes := [.pending], taken := [[0, 0, 0, 12, 2]] } } :=
    rfl
  refine ⟨_, _, hmade, rfl, ?_⟩
  rintro ⟨done, hdone, hwritten⟩
  rcases List.sublist_cons_iff.1 hdone with hnone | ⟨rest, rfl, hrest⟩
  · rw [List.sublist_nil.1 hnone] at hwritten
    exact absurd hwritten (by decide +kernel)
  · rw [List.sublist_nil.1 hrest] at hwritten
    exact absurd hwritten (by decide +kernel)

end Transport

end Amqp
