import Amqp.Stream
import Mathlib.Algebra.GroupWithZero.Nat
import Mathlib.Tactic.SplitIfs

/-!
# Runs of reads

A peer that only sends octets, pauses and interrupts reads lets a run of reads end in three ways:
the octets are there, the run has timed out, or it is still waiting when the observed time is over.
In each of them no octet is lost (`FillSpec.keeps`).  A run that times out leaves less to be met
than it found (`FillSpec.progress`), where a pause counts with what is left of it, and with one more
before it has begun.  A run only waits beyond the observed time when the pauses do
(`FillSpec.stall`).  Every run ends so (`ReadPolicy.fills`), by one lemma for each kind of event
that it can meet first.
-/

namespace Amqp

/-! ## What reads are going to meet -/

namespace ReadEvent

/-- The octets that an event brings. -/
def content : ReadEvent → Bytes
  | octets b => b
  | _ => []

/-- Whether an event neither ends nor breaks the stream. -/
def IsSoft : ReadEvent → Prop
  | octets b => b ≠ []
  | fault cause => cause = .interrupted ∨ cause = .wouldBlock ∨ cause = .timedOut
  | ended => False
  | delay _ | quietUntil _ => True

/-- How long an event makes reads wait from a given instant on. -/
def pause (now : Nat) : ReadEvent → Nat
  | delay milliseconds => milliseconds
  | quietUntil instant => instant - now
  | _ => 0

/-- How often an event can cut a run of reads short, counted from a given instant on. -/
def weight (now : Nat) : ReadEvent → Nat
  | delay milliseconds => milliseconds + 2
  | quietUntil instant => instant - now + 1
  | _ => 1

theorem content_quietUntil (instant : Nat) : (quietUntil instant).content = [] := rfl

theorem weight_quietUntil (now instant : Nat) :
    (quietUntil instant).weight now = instant - now + 1 := rfl

theorem weight_pos (now : Nat) (e : ReadEvent) : 0 < e.weight now := by
  cases e <;> simp [weight]

theorem weight_anti {m n : Nat} (h : m ≤ n) (e : ReadEvent) : e.weight n ≤ e.weight m := by
  cases e <;> simp only [weight] <;> omega

theorem pause_anti {m n : Nat} (h : m ≤ n) (e : ReadEvent) : e.pause n ≤ e.pause m := by
  cases e <;> simp only [pause] <;> omega

end ReadEvent

/-- The octets that events bring. -/
def arriving (reads : List ReadEvent) : Bytes := reads.flatMap ReadEvent.content

/-- How long events can make reads wait from a given instant on. -/
def pauses (now : Nat) (reads : List ReadEvent) : Nat := (reads.map (ReadEvent.pause now)).sum

/-- How often events can cut runs of reads short, counted from a given instant on. -/
def workload (now : Nat) (reads : List ReadEvent) : Nat := (reads.map (ReadEvent.weight now)).sum

@[simp] theorem arriving_nil : arriving [] = [] := rfl

@[simp] theorem arriving_cons (e : ReadEvent) (reads : List ReadEvent) :
    arriving (e :: reads) = e.content ++ arriving reads := by
  simp [arriving]

@[simp] theorem pauses_cons (now : Nat) (e : ReadEvent) (reads : List ReadEvent) :
    pauses now (e :: reads) = e.pause now + pauses now reads := by
  simp [pauses]

@[simp] theorem workload_cons (now : Nat) (e : ReadEvent) (reads : List ReadEvent) :
    workload now (e :: reads) = e.weight now + workload now reads := by
  simp [workload]

theorem workload_anti {m n : Nat} (h : m ≤ n) (reads : List ReadEvent) :
    workload n reads ≤ workload m reads := by
  induction reads with
  | nil => exact Nat.le_refl 0
  | cons e reads ih =>
    have he := e.weight_anti h
    rw [workload_cons, workload_cons]
    omega

theorem pauses_anti {m n : Nat} (h : m ≤ n) (reads : List ReadEvent) :
    pauses n reads ≤ pauses m reads := by
  induction reads with
  | nil => exact Nat.le_refl 0
  | cons e reads ih =>
    have he := e.pause_anti h
    rw [pauses_cons, pauses_cons]
    omega

/-! ## How a run of reads ends -/

/-- What a run of reads makes of soft events.  `deadline` is that of its first read. -/
structure FillSpec (horizon missing : Nat) (deadline : Option Nat) (octets : Bytes) (now : Nat)
    (reads : List ReadEvent) (f : Filled) : Prop where
  /-- No octet is lost, and their order is kept. -/
  keeps : f.octets ++ arriving f.rest = octets ++ arriving reads
  soft : ∀ e ∈ f.rest, e.IsSoft
  now_le : now ≤ f.now
  /-- A run with enough octets to come does not wait longer than the pauses before them. -/
  budget : missing ≤ (arriving reads).length →
    f.now + pauses f.now f.rest ≤ now + pauses now reads
  ok : f.result = .ok () → f.octets.length = octets.length + missing ∧
    ∀ n, workload n f.rest ≤ workload n reads
  fault : ∀ cause, f.result = .error (some cause) → cause = .timeout
  work : (∃ cause, f.result = .error (some cause)) → workload f.now f.rest ≤ workload now reads
  /-- A run that times out after some time, since `n`, has less to do than there was then. -/
  progress : (∃ cause, f.result = .error (some cause)) → missing ≤ (arriving reads).length →
    ∀ n ≤ now, (∀ instant, deadline = some instant → n < instant) →
      workload f.now f.rest < workload n reads
  stall : f.result = .error none → missing ≤ (arriving reads).length →
    horizon < now + pauses now reads

namespace FillSpec

variable {horizon missing now : Nat} {deadline : Option Nat} {octets : Bytes} {e : ReadEvent}
  {reads : List ReadEvent} {f : Filled}

theorem ok_ne_error (cause : Option Fault) : (.ok () : StreamResult) ≠ .error cause := nofun

theorem error_ne_ok (cause : Option Fault) : (.error cause : StreamResult) ≠ .ok () := nofun

theorem stalled_ne_fault (cause : Fault) : (.error none : StreamResult) ≠ .error (some cause) :=
  nofun

theorem fault_ne_stalled (cause : Fault) : (.error (some cause) : StreamResult) ≠ .error none :=
  nofun

/-- A run that goes on behind its first event. -/
theorem of_consumed {missing' now' : Nat} {deadline' : Option Nat} {octets' : Bytes}
    (h : FillSpec horizon missing' deadline' octets' now' reads f)
    (hoctets : octets' = octets ++ e.content)
    (hmissing : e.content.length + missing' = missing) (hnow : now ≤ now')
    (hpause : now' + pauses now' reads ≤ now + pauses now (e :: reads)) :
    FillSpec horizon missing deadline octets now (e :: reads) f := by
  have henough : missing ≤ (arriving (e :: reads)).length → missing' ≤ (arriving reads).length := by
    rw [arriving_cons, List.length_append]
    omega
  have hwork : ∀ n ≤ now', workload now' reads < workload n (e :: reads) := by
    intro n hn
    have hanti := workload_anti hn reads
    have hpos := e.weight_pos n
    rw [workload_cons]
    omega
  refine ⟨?_, h.soft, Nat.le_trans hnow h.now_le, ?_, ?_, h.fault, ?_, ?_, ?_⟩
  · rw [h.keeps, hoctets, arriving_cons, List.append_assoc]
  · intro hmore
    exact Nat.le_trans (h.budget (henough hmore)) hpause
  · intro hok
    obtain ⟨hlength, hless⟩ := h.ok hok
    refine ⟨?_, fun n => ?_⟩
    · rw [hlength, hoctets, List.length_append]
      omega
    · rw [workload_cons]
      exact Nat.le_add_left_of_le (hless n)
  · intro hfault
    exact Nat.le_of_lt (Nat.lt_of_le_of_lt (h.work hfault) (hwork now hnow))
  · intro hfault _ n hn _
    exact Nat.lt_of_le_of_lt (h.work hfault) (hwork n (Nat.le_trans hn hnow))
  · intro hstall hmore
    exact Nat.lt_of_lt_of_le (h.stall hstall (henough hmore)) hpause

/-- A run that has all its octets, the last of them from the first event. -/
theorem of_filled {rest : List ReadEvent} {b : Bytes} (hlength : b.length = missing)
    (hkeeps : b ++ arriving rest = arriving reads) (hsoft : ∀ e ∈ rest, e.IsSoft)
    (hpauses : pauses now rest ≤ pauses now reads)
    (hwork : ∀ n, workload n rest ≤ workload n reads) :
    FillSpec horizon missing deadline octets now reads ⟨.ok (), octets ++ b, now, rest⟩ := by
  refine ⟨?_, hsoft, Nat.le_refl now, fun _ => Nat.add_le_add_left hpauses now, fun _ => ?_,
    fun cause h => absurd h (ok_ne_error (some cause)),
    fun ⟨cause, h⟩ => absurd h (ok_ne_error (some cause)),
    fun ⟨cause, h⟩ => absurd h (ok_ne_error (some cause)), fun h => absurd h (ok_ne_error none)⟩
  · rw [List.append_assoc, hkeeps]
  · exact ⟨by rw [List.length_append, hlength], hwork⟩

/-- A run that is cut short by its first event. -/
theorem of_timedOut (hsoft : ∀ e ∈ reads, e.IsSoft) (hcontent : e.content = []) :
    FillSpec horizon missing deadline octets now (e :: reads)
      ⟨.error (some .timeout), octets, now, reads⟩ := by
  have hwork : ∀ n ≤ now, workload now reads < workload n (e :: reads) := by
    intro n hn
    have hanti := workload_anti hn reads
    have hpos := e.weight_pos n
    rw [workload_cons]
    omega
  refine ⟨by simp [hcontent], hsoft, Nat.le_refl now, fun _ => ?_,
    fun h => absurd h (error_ne_ok _), ?_, fun _ => Nat.le_of_lt (hwork now (Nat.le_refl now)),
    fun _ _ n hn _ => hwork n hn, fun h => absurd h (fault_ne_stalled _)⟩
  · rw [pauses_cons]
    exact Nat.add_le_add_left (Nat.le_add_left _ _) now
  · intro cause hcause
    exact (Option.some.inj (Except.error.inj hcause)).symm

/-- A run that waits for its deadline with nothing to come. -/
theorem of_exhausted (hmissing : 0 < missing) (hdeadline : ∀ i, deadline = some i → now ≤ i) :
    FillSpec horizon missing deadline octets now [] (expire horizon deadline octets now []) := by
  have hnone : ¬ missing ≤ (arriving []).length := by
    rw [arriving_nil, List.length_nil]
    omega
  have hwaits : FillSpec horizon missing deadline octets now [] ⟨.error none, octets, now, []⟩ :=
    ⟨rfl, by simp, Nat.le_refl now, fun h => absurd h hnone, fun h => absurd h (error_ne_ok _),
      fun cause h => absurd h (stalled_ne_fault cause),
      fun ⟨cause, h⟩ => absurd h (stalled_ne_fault cause), fun _ h => absurd h hnone,
      fun _ h => absurd h hnone⟩
  unfold expire
  rcases expiry_cases horizon deadline now with ⟨limit, hlimit, -, hexpiry⟩ | hexpiry
  · rw [hexpiry]
    refine ⟨rfl, by simp, hdeadline limit hlimit, fun h => absurd h hnone,
      fun h => absurd h (error_ne_ok _), ?_, fun _ => Nat.le_refl 0, fun _ h => absurd h hnone,
      fun h => absurd h (fault_ne_stalled _)⟩
    intro cause hcause
    exact (Option.some.inj (Except.error.inj hcause)).symm
  · rw [hexpiry]
    exact hwaits

/-- A run that waits beyond the observed time. -/
theorem of_stalled {instant : Nat} (hsoft : ∀ e ∈ reads, e.IsSoft) (hcontent : e.content = [])
    (hpause : now + e.pause now = instant) (hnow : now ≤ instant) (hlate : horizon < instant) :
    FillSpec horizon missing deadline octets now (e :: reads)
      ⟨.error none, octets, now, .quietUntil instant :: reads⟩ := by
  refine ⟨?_, ?_, Nat.le_refl now, fun _ => ?_, fun h => absurd h (error_ne_ok _),
    fun cause h => absurd h (stalled_ne_fault cause),
    fun ⟨cause, h⟩ => absurd h (stalled_ne_fault cause),
    fun ⟨cause, h⟩ => absurd h (stalled_ne_fault cause), fun _ _ => ?_⟩
  · rw [arriving_cons, arriving_cons, hcontent, ReadEvent.content_quietUntil]
  · exact List.forall_mem_cons.2 ⟨trivial, hsoft⟩
  · simp only [pauses_cons, ReadEvent.pause] at hpause ⊢
    omega
  · rw [pauses_cons]
    omega

/-- A run that waits for its deadline in a pause. -/
theorem of_expired {instant limit : Nat} (hsoft : ∀ e ∈ reads, e.IsSoft) (hcontent : e.content = [])
    (hpause : now + e.pause now = instant) (hnow : now ≤ limit) (hlimit : limit < instant)
    (hweight : instant - limit + 1 ≤ e.weight now)
    (hless : ∀ n < limit, instant - limit + 1 < e.weight n) :
    FillSpec horizon missing (some limit) octets now (e :: reads)
      (expire horizon (some limit) octets now (.quietUntil instant :: reads)) := by
  unfold expire expiry
  dsimp only
  split_ifs with hhorizon
  · refine ⟨?_, List.forall_mem_cons.2 ⟨trivial, hsoft⟩, hnow, fun _ => ?_,
      fun h => absurd h (error_ne_ok _), ?_, fun _ => ?_, fun _ _ n hn hlater => ?_,
      fun h => absurd h (fault_ne_stalled _)⟩
    · rw [arriving_cons, arriving_cons, hcontent, ReadEvent.content_quietUntil]
    · have hanti := pauses_anti hnow reads
      simp only [pauses_cons, ReadEvent.pause] at hpause ⊢
      omega
    · intro cause hcause
      exact (Option.some.inj (Except.error.inj hcause)).symm
    · have hanti := workload_anti hnow reads
      dsimp only
      rw [workload_cons, workload_cons, ReadEvent.weight_quietUntil]
      omega
    · have hanti := workload_anti (Nat.le_trans hn hnow) reads
      have hsince := hless n (hlater limit rfl)
      dsimp only
      rw [workload_cons, workload_cons, ReadEvent.weight_quietUntil]
      omega
  · exact of_stalled hsoft hcontent hpause (by omega) (by omega)

end FillSpec

/-! ## Runs by their first event -/

namespace ReadPolicy

/-- Whether every run over some events, under a policy, ends as it should. -/
def Fills (o : ReadPolicy) (horizon : Nat) (reads : List ReadEvent) : Prop :=
  ∀ ⦃missing : Nat⦄ ⦃deadline : Option Nat⦄ ⦃now : Nat⦄ (interrupted : Bool) (octets : Bytes),
    0 < missing → (∀ instant, deadline = some instant → now ≤ instant) →
    FillSpec horizon missing deadline octets now reads
      (fill o horizon missing deadline interrupted octets now reads)

variable {o : ReadPolicy} {horizon : Nat} {reads : List ReadEvent}

/-- The deadline of a read that begins now is not over. -/
theorem le_deadline (o : ReadPolicy) (now : Nat) :
    ∀ instant, o.deadline now = some instant → now ≤ instant := by
  intro instant h
  obtain ⟨timeout, -, rfl⟩ := Option.map_eq_some_iff.1 h
  exact Nat.le_add_right now timeout

theorem Fills.octets (h : Fills o horizon reads) (hsoft : ∀ e ∈ reads, e.IsSoft) {b : Bytes}
    (hb : b ≠ []) : Fills o horizon (.octets b :: reads) := by
  intro missing deadline now interrupted octets hmissing hdeadline
  have hpause : pauses now reads ≤ pauses now (.octets b :: reads) := by
    rw [pauses_cons]
    omega
  rw [fill, if_neg (by simpa using hb)]
  split_ifs with hmore hexact
  · refine FillSpec.of_filled ?_ ?_ ?_ ?_ (fun _ => ?_)
    · rw [List.length_take]
      omega
    · simp [ReadEvent.content, ← List.append_assoc]
    · refine List.forall_mem_cons.2 ⟨?_, hsoft⟩
      intro hnil
      have hlength := congrArg List.length hnil
      rw [List.length_drop, List.length_nil] at hlength
      omega
    · simp [ReadEvent.pause]
    · simp [ReadEvent.weight]
  · refine FillSpec.of_filled hexact.symm ?_ hsoft hpause (fun n => ?_)
    · simp [ReadEvent.content]
    · rw [workload_cons]
      omega
  · have hleft : 0 < missing - b.length := by omega
    refine (h interrupted (octets ++ b) hleft (o.le_deadline now)).of_consumed rfl ?_
      (Nat.le_refl now) (by omega)
    simp only [ReadEvent.content]
    omega

/-- A read that is cut short is given up or done again. -/
theorem Fills.fault (h : Fills o horizon reads) (hsoft : ∀ e ∈ reads, e.IsSoft)
    {cause : StreamFault} (he : (ReadEvent.fault cause).IsSoft) :
    Fills o horizon (.fault cause :: reads) := by
  intro missing deadline now interrupted octets hmissing hdeadline
  have hgo : ∀ interrupted, FillSpec horizon missing deadline octets now (.fault cause :: reads)
      (fill o horizon missing (o.deadline now) interrupted octets now reads) := by
    intro interrupted
    refine (h interrupted octets hmissing (o.le_deadline now)).of_consumed ?_ ?_
      (Nat.le_refl now) ?_
    · simp [ReadEvent.content]
    · simp [ReadEvent.content]
    · rw [pauses_cons]
      omega
  have hstop : FillSpec horizon missing deadline octets now (.fault cause :: reads)
      ⟨.error (some .timeout), octets, now, reads⟩ := FillSpec.of_timedOut hsoft rfl
  rcases he with rfl | rfl | rfl
  · rw [fill]
    split_ifs
    · exact hstop
    · exact hgo true
    · exact hgo interrupted
  · rw [fill]
    split_ifs
    · exact hstop
    · exact hgo true
    · exact hgo interrupted
  · exact hstop

theorem Fills.delay (h : Fills o horizon reads) (hsoft : ∀ e ∈ reads, e.IsSoft)
    (milliseconds : Nat) : Fills o horizon (.delay milliseconds :: reads) := by
  intro missing deadline now interrupted octets hmissing hdeadline
  rw [fill]
  split_ifs with hlate hhorizon
  · obtain ⟨limit, rfl, hlimit⟩ : ∃ limit, deadline = some limit ∧ limit < now + milliseconds := by
      simpa [Option.any_eq_true] using hlate
    have hnow := hdeadline limit rfl
    refine FillSpec.of_expired hsoft rfl rfl hnow hlimit ?_ fun n hn => ?_
    · simp only [ReadEvent.weight]
      omega
    · simp only [ReadEvent.weight]
      omega
  · refine (h interrupted octets hmissing ?_).of_consumed ?_ ?_
      (Nat.le_add_right now milliseconds) ?_
    · intro limit hlimit
      subst hlimit
      simpa using hlate
    · simp [ReadEvent.content]
    · simp [ReadEvent.content]
    · have hanti := pauses_anti (Nat.le_add_right now milliseconds) reads
      simp only [pauses_cons, ReadEvent.pause]
      omega
  · exact FillSpec.of_stalled hsoft rfl rfl (Nat.le_add_right _ _) (by omega)

theorem Fills.quietUntil (h : Fills o horizon reads) (hsoft : ∀ e ∈ reads, e.IsSoft)
    (instant : Nat) : Fills o horizon (.quietUntil instant :: reads) := by
  intro missing deadline now interrupted octets hmissing hdeadline
  have hover : now + ReadEvent.pause now (.quietUntil instant) = max now instant := by
    rw [ReadEvent.pause]
    omega
  rw [fill]
  split_ifs with hpast hlate hhorizon
  · refine (h interrupted octets hmissing hdeadline).of_consumed ?_ ?_ (Nat.le_refl now) ?_
    · simp [ReadEvent.content]
    · simp [ReadEvent.content]
    · rw [pauses_cons]
      omega
  · obtain ⟨limit, rfl, hlimit⟩ : ∃ limit, deadline = some limit ∧ limit < instant := by
      simpa [Option.any_eq_true] using hlate
    have hnow := hdeadline limit rfl
    refine FillSpec.of_expired hsoft rfl (by omega) hnow hlimit ?_ fun n hn => ?_
    · simp only [ReadEvent.weight]
      omega
    · simp only [ReadEvent.weight]
      omega
  · refine (h interrupted octets hmissing ?_).of_consumed ?_ ?_ (by omega) ?_
    · intro limit hlimit
      subst hlimit
      simpa using hlate
    · simp [ReadEvent.content]
    · simp [ReadEvent.content]
    · have hanti := pauses_anti (Nat.le_of_not_le hpast) reads
      simp only [pauses_cons, ReadEvent.pause]
      omega
  · exact FillSpec.of_stalled hsoft rfl (by omega) (by omega) (by omega)

/-- Every run over soft events ends as it should. -/
theorem fills (o : ReadPolicy) (horizon : Nat) {reads : List ReadEvent}
    (hsoft : ∀ e ∈ reads, e.IsSoft) : Fills o horizon reads := by
  induction reads with
  | nil => exact fun _ _ _ _ _ hmissing hdeadline => FillSpec.of_exhausted hmissing hdeadline
  | cons e reads ih =>
    obtain ⟨he, hrest⟩ := List.forall_mem_cons.1 hsoft
    have hreads := ih hrest
    cases e with
    | octets b => exact hreads.octets hrest he
    | fault cause => exact hreads.fault hrest he
    | ended => exact absurd he id
    | delay milliseconds => exact hreads.delay hrest milliseconds
    | quietUntil instant => exact hreads.quietUntil hrest instant

end ReadPolicy

end Amqp
