import Amqp.Proofs.Link.History
import Amqp.Proofs.Link.Place

/-!
# One detach for each attach

`Life` records the attaches and detaches that a link end sends, and when its session is over.  Each
event is an `Exchange` of the handshakes, so that every detach comes right after an attach
(`Follows`).  The one exception is a detach by the owner of the link while an earlier one with an
error has not been answered (`Life.oneDetachEach_iff`).
-/

namespace Amqp.Link

/-! ## Events and milestones -/

/-- What can happen to a link end: its session changes its state, its owner attaches or detaches it,
time passes, or a frame of the peer arrives. -/
inductive Event where
  | session (state : Session.State)
  | attach
  | detach (close : Bool) (error : Option ErrorInfo)
  | evaluate (now : Nat)
  | onAttach (v : Attach)
  | onFlow (v : Flow)
  | onTransfer (v : Transfer)
  | onDisposition (v : Disposition)
  | onDetach (v : Detach)

/-- The link after an event, and its outputs.  A transfer that is refused changes nothing. -/
def perform (l : Link) : Event → Link × List Output
  | .session state => l.followSession state
  | .attach => l.attach
  | .detach close error => l.detach close error
  | .evaluate now => (l.evaluate now, [])
  | .onAttach v => l.onAttach v
  | .onFlow v => l.onFlow v
  | .onTransfer v => (l.onTransfer v).toOption.getD (l, [])
  | .onDisposition v => l.onDisposition v
  | .onDetach v => l.onDetach v

/-- Whether the session is over with an event. -/
def Event.endsSession : Event → Bool
  | .session state => state == .discarding || state == .unmapped
  | _ => false

/-- What counts for the attachments of a link: an attach or a detach that it sends, and the end of
its session. -/
inductive Milestone where
  | attach
  | detach
  | over
deriving DecidableEq

/-- The milestone that an output is. -/
def Output.milestone? : Output → Option Milestone
  | .attach _ => some .attach
  | .detach _ => some .detach
  | _ => none

/-- The milestones among outputs. -/
def milestones (outputs : List Output) : List Milestone := outputs.filterMap Output.milestone?

/-- A link with its milestones so far. -/
structure Life where
  link : Link
  milestones : List Milestone := []

namespace Life

/-- A life with one more event. -/
def act (x : Life) (e : Event) : Life where
  link := (x.link.perform e).1
  milestones := x.milestones ++
    ((if e.endsSession then [.over] else []) ++ Link.milestones (x.link.perform e).2)

/-- A life with more events. -/
def run (x : Life) (events : List Event) : Life := events.foldl act x

end Life

/-- Whether at most one detach comes between an attach and the next one or the end of the session,
and none before the first attach. -/
structure OneDetachEach (ms : List Milestone) : Prop where
  once : ∀ past mid later, ms = past ++ .attach :: mid ++ later → .attach ∉ mid → .over ∉ mid →
    mid.count .detach ≤ 1
  not_before : ∀ past later, ms = past ++ .detach :: later → .attach ∈ past

/-- Whether every detach comes right after an attach. -/
def Follows (ms : List Milestone) : Prop :=
  ∀ past later, ms = past ++ .detach :: later → ∃ p, past = p ++ [.attach]

variable {ms : List Milestone}

theorem follows_nil : Follows [] := fun past later h =>
  absurd h.symm (List.append_ne_nil_of_right_ne_nil past (List.cons_ne_nil _ later))

theorem Follows.snoc {m : Milestone} (h : Follows ms)
    (hm : m = .detach → ∃ p, ms = p ++ [.attach]) : Follows (ms ++ [m]) := by
  intro past later hsplit
  rcases append_cons_eq_snoc hsplit.symm with ⟨rfl, hdetach, -⟩ | ⟨rest, -, hpast⟩
  · exact hm hdetach.symm
  · exact h past rest hpast

/-- A second detach would follow the first one, or what has come in between. -/
theorem Follows.oneDetachEach (h : Follows ms) : OneDetachEach ms where
  once past mid later hsplit hattach _ := by
    cases mid with
    | nil => exact Nat.zero_le 1
    | cons m rest =>
      have hnone : rest.count .detach = 0 := by
        refine List.count_eq_zero.2 fun hdetach => ?_
        obtain ⟨a, b, rfl⟩ := List.append_of_mem hdetach
        obtain ⟨p, hp⟩ := h (past ++ .attach :: m :: a) (b ++ later) (by simp [hsplit])
        rw [← List.dropLast_append_getLast (List.cons_ne_nil m a), ← List.cons_append,
          ← List.append_assoc] at hp
        have hlast := List.getLast_mem (List.cons_ne_nil m a)
        rw [List.singleton_inj.1 (List.append_inj' hp rfl).2] at hlast
        exact hattach (List.cons_append ▸ List.mem_append_left (.detach :: b) hlast)
      rw [List.count_cons, hnone]
      split_ifs <;> simp
  not_before past later hsplit := by
    obtain ⟨p, rfl⟩ := h past later hsplit
    simp

/-! ## The handshakes -/

/-- Whether an end has attached, or begun to, and not detached since. -/
def State.IsOpen (s : State) : Prop := s ≠ .detached ∧ s ≠ .detachSent ∧ s ≠ .error

instance (s : State) : Decidable s.IsOpen := inferInstanceAs (Decidable (_ ∧ _ ∧ _))

theorem isOpen_attachSent : State.attachSent.IsOpen := by decide

theorem isOpen_attached : State.attached.IsOpen := by decide

/-- A step of the handshakes: from one state to another, with the milestones of its outputs. -/
inductive Exchange (s : State) : State → List Milestone → Prop
  | idle : Exchange s s []
  | attaching {s' : State} (hs : s = .detached) (hs' : s'.IsOpen) : Exchange s s' [.attach]
  | attached {s' : State} (hs : s.IsOpen) (hs' : s'.IsOpen) : Exchange s s' []
  | detaching {s' : State} (hs : s.IsOpen) (hs' : ¬ s'.IsOpen) : Exchange s s' [.detach]
  | answered (hs : ¬ s.IsOpen) : Exchange s .detached []

namespace Endpoint

variable (e : Endpoint)

theorem exchange_followSession {state : Session.State}
    (hstate : (state == .discarding || state == .unmapped) = false) :
    Exchange e.state (e.followSession state).1.state (milestones (e.followSession state).2) := by
  unfold followSession
  cases state with
  | mapped =>
    dsimp only
    split_ifs with hdetached
    · rw [Bool.and_eq_true, beq_iff_eq] at hdetached
      exact .attaching hdetached.2 isOpen_attachSent
    · exact .idle
  | discarding => cases hstate
  | unmapped => cases hstate
  | _ => exact .idle

theorem exchange_onAttach (v : Attach) :
    Exchange e.state (e.onAttach v).1.state (milestones (e.onAttach v).2.1) := by
  unfold onAttach
  dsimp only
  split
  · rename_i hstate
    rw [hstate]
    exact .attaching rfl isOpen_attached
  · rename_i hstate
    rw [hstate]
    exact .attached isOpen_attachSent isOpen_attached
  · exact .idle

theorem exchange_detach (close : Bool) (error : Option ErrorInfo) (hstate : e.state ≠ .error) :
    Exchange e.state (e.detach close error).1.state (milestones (e.detach close error).2) := by
  unfold detach
  split
  · exact .idle
  · exact .idle
  · rename_i hdetached hsent
    refine .detaching ⟨hdetached, hsent, hstate⟩ ?_
    cases error with
    | none => exact fun h => h.2.1 rfl
    | some v => exact fun h => h.2.2 rfl

theorem exchange_onDetach (v : Detach) :
    Exchange e.state (e.onDetach v).1.state (milestones (e.onDetach v).2) := by
  unfold onDetach
  dsimp only
  split
  · exact .idle
  · rename_i hstate
    exact .answered (by rw [hstate]; decide)
  · rename_i hstate
    exact .answered (by rw [hstate]; decide)
  · rename_i hdetached hsent herror
    exact .detaching ⟨hdetached, hsent, herror⟩ fun h => h.1 rfl

end Endpoint

/-! ## Events as exchanges -/

theorem milestones_append (outputs more : List Output) :
    milestones (outputs ++ more) = milestones outputs ++ milestones more := List.filterMap_append

theorem Sender.exchange_onFlow (v : Flow) (s : Sender) :
    Exchange s.endpoint.state (s.onFlow v).1.endpoint.state (milestones (s.onFlow v).2) := by
  have hsame : (s.onFlow v).1.endpoint.state = s.endpoint.state := by
    unfold onFlow
    dsimp only
    split_ifs <;> split <;> rfl
  have hnone : milestones (s.onFlow v).2 = [] := by
    unfold onFlow
    dsimp only
    split_ifs <;> rfl
  rw [hsame, hnone]
  exact .idle

theorem Sender.exchange_onDisposition (d : Disposition) (s : Sender) :
    Exchange s.endpoint.state (s.onDisposition d).1.endpoint.state
      (milestones (s.onDisposition d).2) := by
  have hnone : milestones (s.onDisposition d).2 = [] := by
    unfold onDisposition
    dsimp only
    split_ifs <;> rfl
  rw [endpoint_onDisposition, hnone]
  exact .idle

namespace Receiver

variable (r : Receiver)

theorem milestones_refill : milestones r.refill.2 = [] := by
  unfold refill
  split_ifs <;> rfl

theorem milestones_queue (m : Message) : milestones (r.queue m).2 = [] := by
  unfold queue
  split_ifs <;> rfl

theorem exchange_onAttach (v : Attach) :
    Exchange r.endpoint.state (r.onAttach v).1.endpoint.state (milestones (r.onAttach v).2) := by
  have hexchange := (r.endpoint.recount v).exchange_onAttach v
  rw [Endpoint.state_recount] at hexchange
  rw [onAttach_eq]
  split_ifs
  · rw [(steady_refill _).state_eq, milestones_append, milestones_refill, List.append_nil]
    exact hexchange
  · exact hexchange

theorem exchange_onFlow (v : Flow) :
    Exchange r.endpoint.state (r.onFlow v).1.endpoint.state (milestones (r.onFlow v).2) := by
  obtain ⟨deliveryCount, linkCredit, hflow⟩ := onFlow_eq v r
  have hnone : milestones (r.onFlow v).2 = [] := by
    unfold onFlow
    dsimp only
    split_ifs <;> rfl
  rw [hflow, hnone]
  exact .idle

/-- A transfer over the size limit detaches the link, and no other one does. -/
theorem exchange_onTransfer (t : Transfer) :
    Exchange r.endpoint.state ((r.onTransfer t).toOption.getD (r, [])).1.endpoint.state
      (milestones ((r.onTransfer t).toOption.getD (r, [])).2) := by
  have hopened := r.steady_opened.state_eq
  have hrefilled {r' : Receiver} (h : r'.endpoint.state = r.endpoint.state) :
      Exchange r.endpoint.state r'.refill.1.endpoint.state (milestones r'.refill.2) := by
    rw [(steady_refill _).state_eq, h, milestones_refill]
    exact .idle
  have htakes := takes_onTransfer t r
  generalize r.onTransfer t = result at htakes ⊢
  cases htakes with
  | dropped => exact .idle
  | refused => exact .idle
  | aborted => exact hrefilled hopened
  | @exceeding m limit hstate =>
    have hexchange := r.opened.endpoint.exchange_detach true (some (sizeExceeded limit))
      fun herror => hstate (Or.inr (hopened.symm.trans herror))
    rw [hopened] at hexchange
    exact hexchange
  | more => exact hrefilled hopened
  | @last m =>
    have hqueued := (steady_queue (m.extend t) r.opened).state_eq.trans hopened
    show Exchange _ _ (milestones (_ ++ _))
    rw [milestones_append, milestones_queue]
    exact hrefilled hqueued

end Receiver

/-! ## Links -/

theorem endpoint_withEndpoint (e : Endpoint) (l : Link) : (l.withEndpoint e).endpoint = e := by
  cases l <;> rfl

/-- The end of the session ends every attachment without an output. -/
theorem change_of_endsSession {e : Event} (h : e.endsSession = true) (l : Link) :
    (l.perform e).1.endpoint.state = .detached ∧ (l.perform e).2 = [] := by
  cases e with
  | session state =>
    cases state with
    | discarding => cases l <;> exact ⟨rfl, rfl⟩
    | unmapped => cases l <;> exact ⟨rfl, rfl⟩
    | _ => cases h
  | _ => cases h

/-- Every event is a step of the handshakes, but for a detach that repeats one. -/
theorem exchange_perform {e : Event} {l : Link} (hover : e.endsSession = false)
    (hagain : ∀ close error, e = .detach close error → l.endpoint.state ≠ .error) :
    Exchange l.endpoint.state (l.perform e).1.endpoint.state (milestones (l.perform e).2) := by
  cases e with
  | session state =>
    cases l with
    | sender s => exact s.endpoint.exchange_followSession hover
    | receiver r => exact r.endpoint.exchange_followSession hover
  | attach =>
    have hmapped : (Session.State.mapped == .discarding || Session.State.mapped == .unmapped) =
      false := rfl
    show Exchange _ (l.withEndpoint _).endpoint.state _
    rw [endpoint_withEndpoint]
    exact Endpoint.exchange_followSession { l.endpoint with isClosed := false } hmapped
  | detach close error =>
    show Exchange _ (l.withEndpoint _).endpoint.state _
    rw [endpoint_withEndpoint]
    exact l.endpoint.exchange_detach close error (hagain close error rfl)
  | evaluate now =>
    cases l with
    | sender s =>
      show Exchange _ (s.evaluate now).endpoint.state _
      rw [Sender.endpoint_evaluate]
      exact .idle
    | receiver r => exact .idle
  | onAttach v =>
    cases l with
    | sender s => exact s.endpoint.exchange_onAttach v
    | receiver r => exact r.exchange_onAttach v
  | onFlow v =>
    cases l with
    | sender s => exact s.exchange_onFlow v
    | receiver r => exact r.exchange_onFlow v
  | onTransfer v =>
    cases l with
    | sender s => exact .idle
    | receiver r =>
      have hexchange := r.exchange_onTransfer v
      unfold perform onTransfer
      dsimp only
      cases hresult : r.onTransfer v with
      | error fault => exact .idle
      | ok change =>
        rw [hresult] at hexchange
        exact hexchange
  | onDisposition v =>
    cases l with
    | sender s => exact s.exchange_onDisposition v
    | receiver r =>
      show Exchange _ (r.onDisposition v).endpoint.state _
      rw [Receiver.endpoint_onDisposition]
      exact .idle
  | onDetach v =>
    cases l with
    | sender s => exact s.endpoint.exchange_onDetach v
    | receiver r => exact r.endpoint.exchange_onDetach v

/-- A detach that repeats one with an error is sent all the same. -/
theorem perform_detach_of_error {l : Link} (hstate : l.endpoint.state = .error) (close : Bool)
    (error : Option ErrorInfo) :
    ((l.perform (.detach close error)).1.endpoint.state = .detachSent ∨
      (l.perform (.detach close error)).1.endpoint.state = .error) ∧
    milestones (l.perform (.detach close error)).2 = [.detach] := by
  show ((l.withEndpoint _).endpoint.state = _ ∨ (l.withEndpoint _).endpoint.state = _) ∧
    milestones (l.endpoint.detach close error).2 = _
  rw [endpoint_withEndpoint]
  unfold Endpoint.detach
  rw [hstate]
  cases error with
  | none => exact ⟨Or.inl rfl, rfl⟩
  | some v => exact ⟨Or.inr rfl, rfl⟩

/-! ## Lives -/

/-- What the state of an end tells of its last milestones: an open one has attached, and one that
waits for the answer to a detach has attached and then sent nothing but detaches. -/
structure Standing (s : State) (ms : List Milestone) : Prop where
  attached : s.IsOpen → ∃ p, ms = p ++ [.attach]
  detaching : s = .detachSent ∨ s = .error →
    ∃ p n, ms = p ++ .attach :: List.replicate (n + 1) .detach

theorem standing_detached (ms : List Milestone) : Standing .detached ms :=
  ⟨fun h => absurd rfl h.1, fun h => by cases h <;> contradiction⟩

theorem standing_of_isOpen {s : State} {p : List Milestone} (h : s.IsOpen) :
    Standing s (p ++ [.attach]) :=
  ⟨fun _ => ⟨p, rfl⟩, fun hs => hs.elim (fun hs => absurd hs h.2.1) (fun hs => absurd hs h.2.2)⟩

theorem Standing.exchange {s s' : State} {new : List Milestone} (h : Standing s ms)
    (hx : Exchange s s' new) : Standing s' (ms ++ new) := by
  cases hx with
  | idle => rwa [List.append_nil]
  | attaching _ hs' => exact standing_of_isOpen hs'
  | attached hs hs' =>
    obtain ⟨p, rfl⟩ := h.attached hs
    rw [List.append_nil]
    exact standing_of_isOpen hs'
  | detaching hs hs' =>
    obtain ⟨p, rfl⟩ := h.attached hs
    exact ⟨fun h => absurd h hs', fun _ => ⟨p, 0, List.append_assoc _ _ _⟩⟩
  | answered => exact standing_detached _

theorem Follows.exchange {s s' : State} {new : List Milestone} (h : Follows ms)
    (hstanding : Standing s ms) (hx : Exchange s s' new) : Follows (ms ++ new) := by
  cases hx with
  | idle => rwa [List.append_nil]
  | attaching => exact h.snoc fun hm => by cases hm
  | attached => rwa [List.append_nil]
  | detaching hs => exact h.snoc fun _ => hstanding.attached hs
  | answered => rwa [List.append_nil]

namespace Life

variable {x : Life} {e : Event}

/-- Whether an event repeats a detach with an error that has not been answered. -/
def Repeats (x : Life) (e : Event) : Prop :=
  (∃ close error, e = .detach close error) ∧ x.link.endpoint.state = .error

theorem act_of_endsSession (h : e.endsSession = true) :
    (x.act e).link.endpoint.state = .detached ∧ (x.act e).milestones = x.milestones ++ [.over] := by
  obtain ⟨hstate, hnone⟩ := change_of_endsSession h x.link
  refine ⟨hstate, ?_⟩
  unfold act
  rw [h, hnone]
  rfl

theorem exchange_act (hover : e.endsSession = false) (hrepeats : ¬ x.Repeats e) :
    ∃ new, (x.act e).milestones = x.milestones ++ new ∧
      Exchange x.link.endpoint.state (x.act e).link.endpoint.state new := by
  have hexchange := exchange_perform hover fun close error he hstate =>
    hrepeats ⟨⟨close, error, he⟩, hstate⟩
  refine ⟨Link.milestones (x.link.perform e).2, ?_, hexchange⟩
  unfold act
  rw [hover]
  rfl

theorem act_of_repeats (h : x.Repeats e) :
    ((x.act e).link.endpoint.state = .detachSent ∨ (x.act e).link.endpoint.state = .error) ∧
      (x.act e).milestones = x.milestones ++ [.detach] := by
  obtain ⟨⟨close, error, rfl⟩, hstate⟩ := h
  obtain ⟨hstate', hdetach⟩ := perform_detach_of_error hstate close error
  exact ⟨hstate', congrArg (x.milestones ++ ·) hdetach⟩

theorem standing_act (h : Standing x.link.endpoint.state x.milestones) :
    Standing (x.act e).link.endpoint.state (x.act e).milestones := by
  cases hover : e.endsSession with
  | true =>
    rw [(act_of_endsSession hover).1]
    exact standing_detached _
  | false =>
    by_cases hrepeats : x.Repeats e
    · obtain ⟨hstate, hms⟩ := act_of_repeats hrepeats
      obtain ⟨p, n, hp⟩ := h.detaching (Or.inr hrepeats.2)
      refine ⟨fun hopen => ?_, fun _ => ⟨p, n + 1, ?_⟩⟩
      · exact hstate.elim (fun hs => absurd hs hopen.2.1) (fun hs => absurd hs hopen.2.2)
      · rw [hms, hp, List.append_assoc, List.cons_append, ← List.replicate_succ']
    · obtain ⟨new, hms, hx⟩ := exchange_act hover hrepeats
      rw [hms]
      exact h.exchange hx

theorem follows_act (h : Follows x.milestones)
    (hstanding : Standing x.link.endpoint.state x.milestones) (hrepeats : ¬ x.Repeats e) :
    Follows (x.act e).milestones := by
  cases hover : e.endsSession with
  | true =>
    rw [(act_of_endsSession hover).2]
    exact h.snoc fun hm => by cases hm
  | false =>
    obtain ⟨new, hms, hx⟩ := exchange_act hover hrepeats
    rw [hms]
    exact h.exchange hstanding hx

theorem run_snoc (x : Life) (events : List Event) (e : Event) :
    x.run (events ++ [e]) = (x.run events).act e := by
  rw [run, List.foldl_append]
  rfl

theorem standing_run (h : Standing x.link.endpoint.state x.milestones) (events : List Event) :
    Standing (x.run events).link.endpoint.state (x.run events).milestones := by
  induction events generalizing x with
  | nil => exact h
  | cons e events ih => exact ih (standing_act h)

theorem milestones_run (x : Life) (events : List Event) :
    ∃ new, (x.run events).milestones = x.milestones ++ new := by
  induction events generalizing x with
  | nil => exact ⟨[], (List.append_nil _).symm⟩
  | cons e events ih =>
    obtain ⟨new, hnew⟩ := ih (x.act e)
    exact ⟨_, hnew.trans (List.append_assoc _ _ _)⟩

/-- A link that starts detached sends one detach for each attach just if no detach of its owner
repeats one with an error. -/
theorem oneDetachEach_iff {l : Link} (hstate : l.endpoint.state = .detached)
    (events : List Event) :
    OneDetachEach (({ link := l } : Life).run events).milestones ↔
      ∀ past e later, events = past ++ e :: later →
        ¬ (({ link := l } : Life).run past).Repeats e := by
  have hstart : Standing ({ link := l } : Life).link.endpoint.state [] := by
    rw [show ({ link := l } : Life).link.endpoint.state = .detached from hstate]
    exact standing_detached _
  constructor
  · -- the repeated detach is the second one since the last attach
    rintro hone past e later rfl hrepeats
    obtain ⟨p, n, hp⟩ := (standing_run hstart past).detaching (Or.inr hrepeats.2)
    obtain ⟨new, hnew⟩ := milestones_run ((({ link := l } : Life).run past).act e) later
    have hall : (({ link := l } : Life).run (past ++ e :: later)).milestones =
        p ++ .attach :: List.replicate (n + 2) .detach ++ new := by
      rw [run, List.foldl_append]
      refine hnew.trans ?_
      rw [(act_of_repeats hrepeats).2, hp, List.append_assoc p, List.cons_append,
        ← List.replicate_succ']
    have hle := hone.once _ _ _ hall (by simp) (by simp)
    rw [List.count_replicate_self] at hle
    omega
  · -- by induction from the end, since what has happened before decides about an event
    intro hnone
    refine Follows.oneDetachEach ?_
    induction events using List.reverseRecOn with
    | nil => exact follows_nil
    | append_singleton events e ih =>
      rw [run_snoc]
      refine follows_act (ih fun past e' later hsplit => ?_) (standing_run hstart events)
        (hnone events e [] rfl)
      exact hnone past e' (later ++ [e]) (by rw [hsplit, List.append_assoc]; rfl)

/-- A detached receiving end that takes messages of two octets. -/
def smallLink : Link := .receiver
  { endpoint :=
      { name := "x", handle := 1, role := .receiver, maxMessageSize := some 2
        senderSettleMode := .mixed, receiverSettleMode := .first }
    prefetch := 1
    autoAccept := true }

/-- A message that is too large detaches the link.  Its owner attaches it anew and detaches it
twice. -/
def detachedTwice : List Event :=
  [.session .mapped, .onAttach { name := "x" },
    .onTransfer { deliveryId := some 0, payload := [1, 2, 3] }, .onDetach { closed := true },
    .attach, .onAttach { name := "x" }, .detach false none, .detach true none, .onDetach {}]

theorem oneDetachEach_of_detachedTwice :
    (({ link := smallLink } : Life).run detachedTwice).milestones =
      [.attach, .detach, .attach, .detach] ∧
    OneDetachEach (({ link := smallLink } : Life).run detachedTwice).milestones ∧
    ∀ past e later, detachedTwice = past ++ e :: later →
      ¬ (({ link := smallLink } : Life).run past).Repeats e := by
  have hms : (({ link := smallLink } : Life).run detachedTwice).milestones =
      [.attach, .detach, .attach, .detach] := rfl
  have hfollows : Follows [.attach, .detach, .attach, .detach] :=
    ((((follows_nil.snoc fun h => by cases h).snoc fun _ => ⟨[], rfl⟩).snoc fun h => by
      cases h).snoc fun _ => ⟨[.attach, .detach], rfl⟩)
  have hone : OneDetachEach (({ link := smallLink } : Life).run detachedTwice).milestones := by
    rw [hms]
    exact hfollows.oneDetachEach
  exact ⟨hms, hone, (oneDetachEach_iff rfl detachedTwice).1 hone⟩

/-- The owner detaches the link with an error, and once more before the peer has answered. -/
def detachedOverError : List Event :=
  [.session .mapped, .onAttach { name := "x" },
    .detach false (some { condition := Condition.internalError }), .detach false none]

theorem not_oneDetachEach_of_detachedOverError :
    (({ link := smallLink } : Life).run detachedOverError).milestones =
      [.attach, .detach, .detach] ∧
    ¬ OneDetachEach (({ link := smallLink } : Life).run detachedOverError).milestones := by
  refine ⟨rfl, fun h => ?_⟩
  have hle := h.once [] [.detach, .detach] [] rfl (by decide) (by decide)
  exact absurd hle (by decide)

end Life

end Amqp.Link
