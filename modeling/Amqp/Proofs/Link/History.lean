import Amqp.Proofs.Link.Deliveries
import Amqp.Proofs.Link.Place
import Amqp.Proofs.Link.Reassembly

/-!
# Histories of a receiving end

`Event` is what can happen to a receiving end: its session changes its state, its application calls
it, or a frame of the peer arrives.  A `History` is an end with the steps that have led to it.  It
also keeps the transfers of the delivery in progress, so that each step tells the delivery that its
transfer has joined (`Step.joined`).

What a transfer does for the queue hangs on its delivery alone: if the delivery is whole now, its
message is queued (`next_of_completes`), and otherwise nothing is queued or settled
(`spares_of_onTransfer`).
-/

namespace Amqp

/-! ## Logs -/

/-- Whether an entry of a log has begun something that no later entry has ended. -/
def Since {α : Type} (begins ends : α → Prop) (log : List α) : Prop :=
  ∃ past a later, log = past ++ a :: later ∧ begins a ∧ ∀ b ∈ later, ¬ ends b

section

variable {α : Type} {begins ends : α → Prop} {log past later : List α} {a b : α}

/-- An entry of a log is the last one, or comes before it. -/
theorem append_cons_eq_snoc (h : past ++ b :: later = log ++ [a]) :
    (past = log ∧ b = a ∧ later = []) ∨ ∃ rest, later = rest ++ [a] ∧ log = past ++ b :: rest := by
  rcases List.eq_nil_or_concat later with rfl | ⟨rest, c, rfl⟩
  · obtain ⟨hpast, hlast⟩ := List.append_inj' h rfl
    exact Or.inl ⟨hpast, (List.cons.inj hlast).1, rfl⟩
  · rw [List.concat_eq_append, ← List.cons_append, ← List.append_assoc] at h
    obtain ⟨hlog, hlast⟩ := List.append_inj' h rfl
    exact Or.inr ⟨rest, by rw [List.concat_eq_append, hlast], hlog.symm⟩

theorem not_since_nil : ¬ Since begins ends [] := by
  rintro ⟨past, a, later, hlog, -⟩
  exact absurd hlog.symm (List.append_ne_nil_of_right_ne_nil past (List.cons_ne_nil a later))

theorem since_snoc :
    Since begins ends (log ++ [a]) ↔ begins a ∨ (Since begins ends log ∧ ¬ ends a) := by
  constructor
  · rintro ⟨past, b, later, hlog, hbegins, hlater⟩
    rcases append_cons_eq_snoc hlog.symm with ⟨rfl, rfl, rfl⟩ | ⟨rest, rfl, rfl⟩
    · exact Or.inl hbegins
    · obtain ⟨hrest, ha⟩ := List.forall_mem_append.1 hlater
      exact Or.inr ⟨⟨past, b, rest, rfl, hbegins, hrest⟩, ha a (List.mem_singleton_self a)⟩
  · rintro (hbegins | ⟨⟨past, b, later, rfl, hbegins, hlater⟩, ha⟩)
    · exact ⟨log, a, [], rfl, hbegins, fun _ hb => absurd hb List.not_mem_nil⟩
    · exact ⟨past, b, later ++ [a], by simp, hbegins,
        List.forall_mem_append.2 ⟨hlater, List.forall_mem_singleton.2 ha⟩⟩

/-- What has begun did so in some entry. -/
theorem Since.exists_mem (h : Since begins ends log) : ∃ a ∈ log, begins a := by
  obtain ⟨past, a, later, rfl, hbegins, -⟩ := h
  exact ⟨a, List.mem_append_right past List.mem_cons_self, hbegins⟩

end

namespace Link

/-- Whether an output settles a delivery. -/
def Output.settles (deliveryId : UInt32) : Output → Bool
  | .disposition d => d.covers deliveryId
  | _ => false

/-- Whether no output settles anything. -/
def IsMute (outputs : List Output) : Prop := ∀ o ∈ outputs, ∀ id, o.settles id = false

theorem isMute_nil : IsMute [] := fun _ ho => absurd ho List.not_mem_nil

theorem isMute_singleton {o : Output} (h : ∀ id, o.settles id = false) : IsMute [o] :=
  List.forall_mem_singleton.2 h

theorem IsMute.append {outputs more : List Output} (h : IsMute outputs) (hmore : IsMute more) :
    IsMute (outputs ++ more) := List.forall_mem_append.2 ⟨h, hmore⟩

/-- The id of a delivery, which its first transfer has. -/
def deliveryId? (d : List Transfer) : Option UInt32 := d.head?.bind (·.deliveryId)

theorem deliveryId?_snoc {ts : List Transfer} (hts : ts ≠ []) (t : Transfer) :
    deliveryId? (ts ++ [t]) = deliveryId? ts := by
  cases ts with
  | nil => exact absurd rfl hts
  | cons u us => rfl

theorem deliveryId?_of_ofParts {d : List Transfer} {m : Message} (h : Message.ofParts d = some m) :
    deliveryId? d = some m.deliveryId := by
  cases d with
  | nil => cases h
  | cons t ts =>
    obtain ⟨id, hid, rfl⟩ := Option.map_eq_some_iff.1 h
    exact hid

/-- The transfers of a message tell whether it is settled. -/
theorem settled_of_ofParts {d : List Transfer} {m : Message} (h : Message.ofParts d = some m) :
    m.settled = false ↔ ∀ t ∈ d, t.settled ≠ some true := by
  cases d with
  | nil => cases h
  | cons t ts =>
    obtain ⟨id, -, rfl⟩ := Option.map_eq_some_iff.1 h
    simp

namespace Receiver

instance (r : Receiver) : Decidable r.IsDetaching := inferInstanceAs (Decidable (_ ∨ _))

theorem settles_settlement (id deliveryId : UInt32) (state : DeliveryState) :
    (settlement deliveryId state).settles id = decide (id = deliveryId) :=
  Disposition.covers_of_last_none rfl id

/-! ## Events -/

/-- What can happen to a receiving end: its session changes its state, its application calls it, or
a frame of the peer arrives. -/
inductive Event where
  | session (state : Session.State)
  | attach
  | detach (close : Bool) (error : Option ErrorInfo)
  | grant (credit : UInt32)
  | settle (deliveryId : UInt32) (state : DeliveryState)
  | pop
  | onAttach (v : Attach)
  | onFlow (v : Flow)
  | onTransfer (v : Transfer)
  | onDisposition (v : Disposition)
  | onDetach (v : Detach)

/-- The end after an event, and its outputs.  What is refused changes nothing. -/
def perform (r : Receiver) : Event → Receiver × List Output
  | .session state => r.followSession state
  | .attach =>
    let change := { r.endpoint with isClosed := false }.followSession .mapped
    ({ r with endpoint := change.1 }, change.2)
  | .detach close error =>
    let change := r.endpoint.detach close error
    ({ r with endpoint := change.1 }, change.2)
  | .grant credit => (r.grant credit).toOption.getD (r, [])
  | .settle deliveryId state => (r.settle deliveryId state).toOption.getD (r, [])
  | .pop => (r.pop.2, [])
  | .onAttach v => r.onAttach v
  | .onFlow v => r.onFlow v
  | .onTransfer v => (r.onTransfer v).toOption.getD (r, [])
  | .onDisposition v => (r.onDisposition v, [])
  | .onDetach v => r.onDetach v

/-- An event, with the end that it happens to and the transfers of its delivery in progress. -/
structure Step where
  receiver : Receiver
  parts : List Transfer
  event : Event

namespace Step

/-- The end after a step. -/
def next (s : Step) : Receiver := (s.receiver.perform s.event).1

/-- What an end sends in a step. -/
def outputs (s : Step) : List Output := (s.receiver.perform s.event).2

/-- The transfers of a delivery up to the one that arrives in this step.  There are none if it is
dropped, or begins a delivery without an id. -/
def joined (s : Step) : List Transfer :=
  match s.event with
  | .onTransfer t =>
    if s.receiver.IsDetaching ∨ (s.parts = [] ∧ t.deliveryId = none) then [] else s.parts ++ [t]
  | _ => []

/-- The transfers of the delivery in progress after a step. -/
def nextParts (s : Step) : List Transfer :=
  if s.next.inProgress = none then [] else if s.joined = [] then s.parts else s.joined

/-- Whether a delivery is whole with this step, and within the size limit. -/
def Completes (s : Step) : Prop :=
  Transfer.completes s.joined = true ∧
    Within s.receiver.endpoint.maxMessageSize (s.joined.flatMap (·.payload)).length

end Step

/-- A receiving end with the steps that have led to it, and the transfers of its delivery in
progress. -/
structure History where
  receiver : Receiver
  parts : List Transfer := []
  steps : List Step := []

namespace History

/-- The next step of a history. -/
def step (h : History) (e : Event) : Step where
  receiver := h.receiver
  parts := h.parts
  event := e

/-- A history with one more event. -/
def act (h : History) (e : Event) : History where
  receiver := (h.step e).next
  parts := (h.step e).nextParts
  steps := h.steps ++ [h.step e]

/-- A history with more events. -/
def run (h : History) (events : List Event) : History := events.foldl act h

/-- All that an end has sent. -/
def outputs (h : History) : List Output := h.steps.flatMap Step.outputs

theorem outputs_act (h : History) (e : Event) :
    (h.act e).outputs = h.outputs ++ (h.step e).outputs := by
  simp [outputs, act]

end History

end Receiver

/-! ## What an event leaves alone -/

namespace Endpoint

/-- What an end lets its peer send: the greatest size of a message, and credit. -/
def allowance (e : Endpoint) : Option UInt64 × UInt32 := (e.maxMessageSize, e.linkCredit)

theorem allowance_followSession (state : Session.State) (e : Endpoint) :
    (e.followSession state).1.allowance = e.allowance := by
  cases state with
  | mapped =>
    unfold followSession
    dsimp only
    split_ifs <;> rfl
  | _ => rfl

theorem allowance_onAttach (attach : Attach) (e : Endpoint) :
    (e.onAttach attach).1.allowance = e.allowance := by
  unfold onAttach
  dsimp only
  split <;> rfl

theorem allowance_detach (close : Bool) (error : Option ErrorInfo) (e : Endpoint) :
    (e.detach close error).1.allowance = e.allowance := by
  unfold detach
  split <;> rfl

theorem allowance_onDetach (detach : Detach) (e : Endpoint) :
    (e.onDetach detach).1.allowance = e.allowance := by
  unfold onDetach
  dsimp only
  split <;> rfl

/-- The end with the delivery count that the attach of a sender announces. -/
def recount (v : Attach) (e : Endpoint) : Endpoint :=
  if v.role = .sender then { e with deliveryCount := v.initialDeliveryCount.getD 0 } else e

theorem allowance_recount (v : Attach) (e : Endpoint) : (e.recount v).allowance = e.allowance := by
  unfold recount
  split_ifs <;> rfl

theorem state_recount (v : Attach) (e : Endpoint) : (e.recount v).state = e.state := by
  unfold recount
  split_ifs <;> rfl

/-- What an attach does for the state does not hang on the counts. -/
theorem state_onAttach_recount (v : Attach) (e : Endpoint) :
    ((e.recount v).onAttach v).1.state = (e.onAttach v).1.state := by
  unfold onAttach
  dsimp only
  rw [state_recount]
  cases e.state <;> rfl

theorem isMute_followSession (state : Session.State) (e : Endpoint) :
    IsMute (e.followSession state).2 := by
  cases state with
  | mapped =>
    unfold followSession
    dsimp only
    split_ifs
    · exact isMute_singleton fun _ => rfl
    · exact isMute_nil
  | _ => exact isMute_nil

theorem isMute_onAttach (attach : Attach) (e : Endpoint) : IsMute (e.onAttach attach).2.1 := by
  unfold onAttach
  dsimp only
  split
  · exact isMute_singleton fun _ => rfl
  · exact isMute_nil
  · exact isMute_nil

theorem isMute_detach (close : Bool) (error : Option ErrorInfo) (e : Endpoint) :
    IsMute (e.detach close error).2 := by
  unfold detach
  split
  · exact isMute_nil
  · exact isMute_nil
  · exact isMute_singleton fun _ => rfl

theorem isMute_onDetach (detach : Detach) (e : Endpoint) : IsMute (e.onDetach detach).2 := by
  unfold onDetach
  dsimp only
  split
  · exact isMute_nil
  · exact isMute_nil
  · exact isMute_nil
  · exact isMute_singleton fun _ => rfl

end Endpoint

namespace Receiver

/-- What stays as it was when an end was set up. -/
def terms (r : Receiver) : UInt32 × Bool × Option UInt64 :=
  (r.prefetch, r.autoAccept, r.endpoint.maxMessageSize)

/-- Whether a change neither settles anything nor makes an end wait for it. -/
structure Spares (r : Receiver) (change : Receiver × List Output) : Prop where
  unsettled_eq : change.1.unsettled = r.unsettled
  isMute : IsMute change.2

variable {r : Receiver} {t : Transfer}

theorem spares_self (r : Receiver) : r.Spares (r, []) := ⟨rfl, isMute_nil⟩

theorem spares_refill (r : Receiver) : r.Spares r.refill := by
  unfold refill
  split_ifs
  · exact ⟨rfl, isMute_singleton fun _ => rfl⟩
  · exact r.spares_self

theorem received_refill (r : Receiver) : r.refill.1.received = r.received := by
  obtain ⟨credit, hrefill⟩ := r.refill_eq
  rw [hrefill]

theorem terms_refill (r : Receiver) : r.refill.1.terms = r.terms := by
  obtain ⟨credit, hrefill⟩ := r.refill_eq
  rw [hrefill]
  rfl

theorem terms_opened (r : Receiver) : r.opened.terms = r.terms := by
  unfold opened
  split_ifs <;> rfl

theorem terms_queue (m : Message) (r : Receiver) : (r.queue m).1.terms = r.terms := by
  obtain ⟨unsettled, hqueue⟩ := r.queue_eq m
  rw [hqueue]
  rfl

theorem queue_opened (m : Message) (r : Receiver) :
    (r.opened.queue m).1.unsettled = (r.queue m).1.unsettled ∧
      (r.opened.queue m).2 = (r.queue m).2 := by
  have hauto : r.opened.autoAccept = r.autoAccept := rfl
  unfold queue
  rw [hauto]
  split_ifs <;> exact ⟨rfl, rfl⟩

theorem terms_of_takes {result : Except Fault (Receiver × List Output)} (h : Takes t r result) :
    (result.toOption.getD (r, [])).1.terms = r.terms := by
  cases h with
  | dropped => rfl
  | refused => rfl
  | aborted => exact (terms_refill _).trans r.terms_opened
  | exceeding =>
    refine Eq.trans ?_ r.terms_opened
    exact congrArg (fun allowance => (r.opened.prefetch, r.opened.autoAccept, allowance.1))
      (Endpoint.allowance_detach _ _ r.opened.endpoint)
  | more => exact (terms_refill _).trans r.terms_opened
  | last => exact (terms_refill _).trans ((terms_queue _ _).trans r.terms_opened)

/-- A handshake that an attach completes is followed by a grant. -/
theorem onAttach_eq (v : Attach) (r : Receiver) :
    r.onAttach v =
      if ((r.endpoint.recount v).onAttach v).2.2 then
        ((refill { r with endpoint :=
            { ((r.endpoint.recount v).onAttach v).1 with linkCredit := 0 } }).1,
          ((r.endpoint.recount v).onAttach v).2.1 ++
            (refill { r with endpoint :=
              { ((r.endpoint.recount v).onAttach v).1 with linkCredit := 0 } }).2)
      else ({ r with endpoint := ((r.endpoint.recount v).onAttach v).1 },
        ((r.endpoint.recount v).onAttach v).2.1) := by
  unfold onAttach
  dsimp only
  rw [← Endpoint.recount]
  rcases (r.endpoint.recount v).onAttach v with ⟨e, outputs, - | -⟩ <;> rfl

theorem terms_onAttach (v : Attach) (r : Receiver) : (r.onAttach v).1.terms = r.terms := by
  have hallowance := ((r.endpoint.recount v).allowance_onAttach v).trans
    (r.endpoint.allowance_recount v)
  have hterms := congrArg (fun allowance => (r.prefetch, r.autoAccept, allowance.1)) hallowance
  rw [onAttach_eq]
  split_ifs
  · exact (terms_refill _).trans hterms
  · exact hterms

theorem spares_onAttach (v : Attach) (r : Receiver) : r.Spares (r.onAttach v) := by
  have hmute := (r.endpoint.recount v).isMute_onAttach v
  rw [onAttach_eq]
  split_ifs
  · obtain ⟨hunsettled, hrefill⟩ := spares_refill
      { r with endpoint := { ((r.endpoint.recount v).onAttach v).1 with linkCredit := 0 } }
    exact ⟨hunsettled, hmute.append hrefill⟩
  · exact ⟨rfl, hmute⟩

theorem state_onAttach (v : Attach) (r : Receiver) :
    (r.onAttach v).1.endpoint.state = (r.endpoint.onAttach v).1.state := by
  rw [onAttach_eq, ← Endpoint.state_onAttach_recount]
  split_ifs
  · exact (steady_refill _).state_eq
  · rfl

theorem held_onAttach (v : Attach) (r : Receiver) :
    (r.onAttach v).1.inProgress = r.inProgress ∧ (r.onAttach v).1.received = r.received := by
  rw [onAttach_eq]
  split_ifs
  · obtain ⟨credit, hrefill⟩ := refill_eq
      { r with endpoint := { ((r.endpoint.recount v).onAttach v).1 with linkCredit := 0 } }
    rw [hrefill]
    exact ⟨rfl, rfl⟩
  · exact ⟨rfl, rfl⟩

/-- A flow changes the counts alone. -/
theorem onFlow_eq (v : Flow) (r : Receiver) : ∃ deliveryCount linkCredit,
    (r.onFlow v).1 = { r with endpoint := { r.endpoint with deliveryCount, linkCredit } } := by
  unfold onFlow
  cases v.deliveryCount with
  | none => exact ⟨_, _, rfl⟩
  | some count =>
    dsimp only
    split_ifs <;> exact ⟨_, _, rfl⟩

theorem isMute_onFlow (v : Flow) (r : Receiver) : IsMute (r.onFlow v).2 := by
  unfold onFlow
  dsimp only
  split_ifs
  · exact isMute_singleton fun _ => rfl
  · exact isMute_nil

theorem perform_grant (credit : UInt32) (r : Receiver) :
    r.perform (.grant credit) =
      if r.endpoint.state ≠ .attached then (r, [])
      else
        ({ r with endpoint := { r.endpoint with linkCredit := credit } },
          [.flow { r.endpoint with linkCredit := credit }.toFlow]) := by
  show (r.grant credit).toOption.getD (r, []) = _
  unfold grant
  split_ifs <;> rfl

theorem perform_settle (id : UInt32) (state : DeliveryState) (r : Receiver) :
    r.perform (.settle id state) =
      if r.hasUnsettled id then
        ({ r with unsettled := r.unsettled.filter (· ≠ id) }, [settlement id state])
      else (r, []) := by
  show (r.settle id state).toOption.getD (r, []) = _
  unfold settle
  split_ifs <;> rfl

theorem endpoint_perform_settle (id : UInt32) (state : DeliveryState) (r : Receiver) :
    (r.perform (.settle id state)).1.endpoint = r.endpoint := by
  rw [perform_settle]
  split_ifs <;> rfl

theorem terms_perform (e : Event) (r : Receiver) : (r.perform e).1.terms = r.terms := by
  have hendpoint {endpoint : Endpoint}
      (h : endpoint.allowance = r.endpoint.allowance) :
      ({ r with endpoint } : Receiver).terms = r.terms :=
    congrArg (fun allowance => (r.prefetch, r.autoAccept, allowance.1)) h
  cases e with
  | session state => exact hendpoint (Endpoint.allowance_followSession _ _)
  | attach => exact hendpoint (Endpoint.allowance_followSession _ _)
  | detach close error => exact hendpoint (Endpoint.allowance_detach _ _ _)
  | grant credit =>
    rw [perform_grant]
    split_ifs <;> rfl
  | settle deliveryId state =>
    rw [perform_settle]
    split_ifs <;> rfl
  | pop => rfl
  | onAttach v => exact terms_onAttach v r
  | onFlow v =>
    obtain ⟨deliveryCount, linkCredit, hflow⟩ := onFlow_eq v r
    show (r.onFlow v).1.terms = _
    rw [hflow]
    rfl
  | onTransfer v => exact terms_of_takes (takes_onTransfer v r)
  | onDisposition v =>
    show (r.onDisposition v).terms = _
    unfold onDisposition
    split_ifs <;> rfl
  | onDetach v => exact hendpoint (Endpoint.allowance_onDetach _ _)

/-- Only transfers, calls of `settle` and dispositions settle deliveries. -/
theorem spares_perform {e : Event} (htransfer : ∀ t, e ≠ .onTransfer t)
    (hsettle : ∀ id state, e ≠ .settle id state) (hdispose : ∀ d, e ≠ .onDisposition d)
    (r : Receiver) : r.Spares (r.perform e) := by
  cases e with
  | session state => exact ⟨rfl, Endpoint.isMute_followSession _ _⟩
  | attach => exact ⟨rfl, Endpoint.isMute_followSession _ _⟩
  | detach close error => exact ⟨rfl, Endpoint.isMute_detach _ _ _⟩
  | grant credit =>
    rw [perform_grant]
    split_ifs
    · exact r.spares_self
    · exact ⟨rfl, isMute_singleton fun _ => rfl⟩
  | settle deliveryId state => exact absurd rfl (hsettle deliveryId state)
  | pop => exact ⟨rfl, isMute_nil⟩
  | onAttach v => exact spares_onAttach v r
  | onFlow v =>
    obtain ⟨deliveryCount, linkCredit, hflow⟩ := onFlow_eq v r
    refine ⟨?_, isMute_onFlow v r⟩
    show (r.onFlow v).1.unsettled = _
    rw [hflow]
  | onTransfer v => exact absurd rfl (htransfer v)
  | onDisposition v => exact absurd rfl (hdispose v)
  | onDetach v => exact ⟨rfl, Endpoint.isMute_onDetach _ _⟩

/-! ## Transfers -/

theorem perform_of_ok {change : Receiver × List Output} (h : r.onTransfer t = .ok change) :
    r.perform (.onTransfer t) = change := by
  show (r.onTransfer t).toOption.getD (r, []) = _
  rw [h]
  rfl

theorem exceedsLimit_eq_none_iff {size : Nat} :
    r.exceedsLimit size = none ↔ Within r.endpoint.maxMessageSize size := by
  refine ⟨fun h l hl hpos => ?_, exceedsLimit_eq_none⟩
  have hover := Option.filter_eq_none_iff.1 h l hl
  rw [Bool.and_eq_true, decide_eq_true_eq, decide_eq_true_eq] at hover
  exact Nat.not_lt.1 fun hlt => hover ⟨hpos, hlt⟩

namespace Step

variable {s : Step} {m : Message}

theorem joined_of_isDetaching (hstate : s.receiver.IsDetaching) : s.joined = [] := by
  unfold joined
  split
  · exact if_pos (Or.inl hstate)
  · rfl

theorem joined_of_none (h : s.receiver.Gathers s.parts) (hevent : s.event = .onTransfer t)
    (hnone : s.receiver.inProgress.or (Message.start t) = none) : s.joined = [] := by
  obtain ⟨hpart, hstart⟩ := Option.or_eq_none_iff.1 hnone
  unfold joined
  rw [hevent]
  exact if_pos (Or.inr
    ⟨h.eq_nil (h.inProgress_eq.symm.trans hpart), Option.map_eq_none_iff.1 hstart⟩)

theorem joined_of_some (h : s.receiver.Gathers s.parts) (hevent : s.event = .onTransfer t)
    (hstate : ¬ s.receiver.IsDetaching)
    (hpart : s.receiver.inProgress.or (Message.start t) = some m) :
    s.joined = s.parts ++ [t] := by
  unfold joined
  rw [hevent]
  refine if_neg ?_
  rintro (hdetaching | ⟨hnil, hid⟩)
  · exact hstate hdetaching
  · rw [h.inProgress_eq, hnil] at hpart
    rw [show Message.start t = none from Option.map_eq_none_iff.2 hid] at hpart
    cases hpart

/-- What a step makes of a transfer: it is passed over, or joins its delivery and aborts it, takes
it over the limit, leaves it unfinished or completes it. -/
inductive Handles (s : Step) (t : Transfer) : Prop
  | passed (hjoined : s.joined = []) (hchange : s.receiver.perform s.event = (s.receiver, []))
  | aborted (hjoined : s.joined = s.parts ++ [t]) (haborted : t.aborted = true)
      (hchange : s.receiver.perform s.event = s.receiver.opened.refill)
  | exceeding {limit : UInt64} (hjoined : s.joined = s.parts ++ [t]) (hkept : t.aborted = false)
      (hlimit : s.receiver.exceedsLimit (s.joined.flatMap (·.payload)).length = some limit)
      (hstate : ¬ s.receiver.IsDetaching)
      (hchange : s.receiver.perform s.event =
        ({ s.receiver.opened with
          endpoint := (s.receiver.opened.endpoint.detach true (some (sizeExceeded limit))).1 },
          (s.receiver.opened.endpoint.detach true (some (sizeExceeded limit))).2))
  | more {m : Message} (hjoined : s.joined = s.parts ++ [t]) (hkept : t.aborted = false)
      (hmore : t.more = true) (hm : Message.ofParts s.joined = some m)
      (hsize : Within s.receiver.endpoint.maxMessageSize m.payload.length)
      (hchange : s.receiver.perform s.event =
        refill { s.receiver.opened with inProgress := some m })
  | last {m : Message} (hjoined : s.joined = s.parts ++ [t]) (hkept : t.aborted = false)
      (hmore : t.more = false) (hm : Message.ofParts s.joined = some m)
      (hsize : Within s.receiver.endpoint.maxMessageSize m.payload.length)
      (hchange : s.receiver.perform s.event =
        ((s.receiver.opened.queue m).1.refill.1,
          (s.receiver.opened.queue m).2 ++ (s.receiver.opened.queue m).1.refill.2))

theorem handles_of_onTransfer (h : s.receiver.Gathers s.parts) (hevent : s.event = .onTransfer t) :
    s.Handles t := by
  have htakes := takes_onTransfer t s.receiver
  generalize hresult : s.receiver.onTransfer t = result at htakes
  have hok {change : Receiver × List Output} (hchange : result = .ok change) :
      s.receiver.perform s.event = change := by
    rw [hevent]
    exact perform_of_ok (hresult.trans hchange)
  have hjoins {m : Message} (hstate : ¬ s.receiver.IsDetaching)
      (hpart : s.receiver.inProgress.or (Message.start t) = some m) :
      s.joined = s.parts ++ [t] ∧ Message.ofParts s.joined = some (m.extend t) := by
    have hjoined := joined_of_some h hevent hstate hpart
    exact ⟨hjoined, by rw [hjoined, h.ofParts_snoc hpart]⟩
  cases htakes with
  | dropped hstate => exact .passed (joined_of_isDetaching hstate) (hok rfl)
  | refused hstate hnone =>
    refine .passed (joined_of_none h hevent hnone) ?_
    rw [hevent]
    show (s.receiver.onTransfer t).toOption.getD (s.receiver, []) = _
    rw [hresult]
    rfl
  | aborted hstate hpart haborted => exact .aborted (hjoins hstate hpart).1 haborted (hok rfl)
  | exceeding hstate hpart hkept hover =>
    obtain ⟨hjoined, hm⟩ := hjoins hstate hpart
    rw [payload_of_ofParts hm] at hover
    exact .exceeding hjoined hkept hover hstate (hok rfl)
  | more hstate hpart hkept hsize hmore =>
    obtain ⟨hjoined, hm⟩ := hjoins hstate hpart
    exact .more hjoined hkept hmore hm (exceedsLimit_eq_none_iff.1 hsize) (hok rfl)
  | last hstate hpart hkept hsize hmore =>
    obtain ⟨hjoined, hm⟩ := hjoins hstate hpart
    exact .last hjoined hkept hmore hm (exceedsLimit_eq_none_iff.1 hsize) (hok rfl)

theorem joined_eq_nil (h : ∀ t, s.event ≠ .onTransfer t) : s.joined = [] := by
  unfold joined
  split
  · rename_i t hevent
    exact absurd hevent (h t)
  · rfl

theorem exists_of_joined (h : s.joined ≠ []) :
    ∃ t, s.event = .onTransfer t ∧ s.joined = s.parts ++ [t] := by
  unfold joined at h ⊢
  split at h
  · rename_i t hevent
    exact ⟨t, hevent, if_neg fun hnil => h (if_pos hnil)⟩
  · exact absurd rfl h

theorem nextParts_of_ne_nil (h : s.nextParts ≠ []) :
    s.nextParts = if s.joined = [] then s.parts else s.joined := by
  unfold nextParts at h ⊢
  exact if_neg fun hnone => h (if_pos hnone)

/-- Other events than transfers keep the delivery in progress or lose it, and queue nothing. -/
theorem holds_next (h : ∀ t, s.event ≠ .onTransfer t) :
    (s.next.inProgress = s.receiver.inProgress ∨ s.next.inProgress = none) ∧
      s.next.received <:+ s.receiver.received := by
  obtain ⟨r, parts, e⟩ := s
  have hof {r' : Receiver} (hpart : r'.inProgress = r.inProgress)
      (hreceived : r'.received = r.received) :
      (r'.inProgress = r.inProgress ∨ r'.inProgress = none) ∧ r'.received <:+ r.received :=
    ⟨Or.inl hpart, hreceived ▸ List.suffix_refl _⟩
  cases e with
  | session state =>
    refine ⟨?_, List.suffix_refl _⟩
    show (if _ then none else r.inProgress) = r.inProgress ∨ (if _ then none else _) = none
    split_ifs
    · exact Or.inr rfl
    · exact Or.inl rfl
  | grant credit =>
    unfold next
    rw [perform_grant]
    split_ifs <;> exact hof rfl rfl
  | settle deliveryId state =>
    unfold next
    rw [perform_settle]
    split_ifs <;> exact hof rfl rfl
  | pop => exact ⟨Or.inl rfl, List.tail_suffix _⟩
  | onAttach v => exact hof (held_onAttach v r).1 (held_onAttach v r).2
  | onFlow v =>
    obtain ⟨deliveryCount, linkCredit, hflow⟩ := onFlow_eq v r
    exact hof (congrArg (·.inProgress) hflow) (congrArg (·.received) hflow)
  | onTransfer v => exact absurd rfl (h v)
  | onDisposition v =>
    have hheld : (r.onDisposition v).inProgress = r.inProgress ∧
        (r.onDisposition v).received = r.received := by
      unfold onDisposition
      split_ifs <;> exact ⟨rfl, rfl⟩
    exact hof hheld.1 hheld.2
  | onDetach v => exact ⟨Or.inr rfl, List.suffix_refl _⟩
  | _ => exact hof rfl rfl

/-- What is in progress after a transfer: what was before if it is passed over, its delivery with
it, or nothing. -/
theorem inProgress_of_onTransfer (h : s.receiver.Gathers s.parts)
    (hevent : s.event = .onTransfer t) :
    (s.joined = [] ∧ s.next = s.receiver) ∨
      (∃ m, Message.ofParts s.joined = some m ∧ s.next.inProgress = some m ∧
        Within s.receiver.endpoint.maxMessageSize m.payload.length) ∨
      s.next.inProgress = none := by
  unfold next
  cases handles_of_onTransfer h hevent with
  | passed hjoined hchange => exact Or.inl ⟨hjoined, by rw [hchange]⟩
  | aborted hjoined haborted hchange =>
    obtain ⟨credit, hrefill⟩ := s.receiver.opened.refill_eq
    exact Or.inr (Or.inr (by rw [hchange, hrefill]; rfl))
  | exceeding hjoined hkept hlimit hstate hchange =>
    exact Or.inr (Or.inr (by rw [hchange]; rfl))
  | @more m hjoined hkept hmore hm hsize hchange =>
    obtain ⟨credit, hrefill⟩ := refill_eq { s.receiver.opened with inProgress := some m }
    exact Or.inr (Or.inl ⟨m, hm, by rw [hchange, hrefill], hsize⟩)
  | @last m hjoined hkept hmore hm hsize hchange =>
    obtain ⟨unsettled, hqueue⟩ := queue_eq m s.receiver.opened
    obtain ⟨credit, hrefill⟩ := refill_eq (s.receiver.opened.queue m).1
    exact Or.inr (Or.inr (by rw [hchange, hrefill, hqueue]; rfl))

theorem gathers_next (h : s.receiver.Gathers s.parts) : s.next.Gathers s.nextParts := by
  by_cases hnone : s.next.inProgress = none
  · rw [nextParts, if_pos hnone]
    exact gathers_nil hnone
  rw [nextParts, if_neg hnone]
  by_cases hevent : ∃ t, s.event = .onTransfer t
  · obtain ⟨t, hevent⟩ := hevent
    rcases inProgress_of_onTransfer h hevent with ⟨hjoined, hsame⟩ | ⟨m, hm, hpart, -⟩ | hnone'
    · rw [if_pos hjoined, hsame]
      exact h
    · rw [if_neg fun hnil => by rw [hnil] at hm; cases hm]
      exact gathers_of_some hm hpart
    · exact absurd hnone' hnone
  · have hother (t : Transfer) (ht : s.event = .onTransfer t) : False := hevent ⟨t, ht⟩
    have hsame := (holds_next hother).1.resolve_right hnone
    rw [if_pos (joined_eq_nil hother)]
    exact ⟨hsame.trans h.inProgress_eq, h.eq_nil⟩

theorem completes_eq_false (hjoined : s.joined = s.parts ++ [t])
    (h : t.aborted = true ∨ t.more = true) : Transfer.completes s.joined = false := by
  rw [hjoined, Transfer.completes_snoc]
  rcases h with h | h <;> simp [h]

/-- A delivery that is whole now is queued as a message.  `queue` says whether it is accepted or
kept for the application to settle. -/
theorem next_of_completes (h : s.receiver.Gathers s.parts) (hevent : s.event = .onTransfer t)
    (hwhole : s.Completes) :
    ∃ m, Message.ofParts s.joined = some m ∧ s.nextParts = [] ∧
      s.next.received = s.receiver.received ++ [m.queuedBy s.receiver.autoAccept] ∧
      s.next.unsettled = (s.receiver.queue m).1.unsettled ∧
      ∃ grants, IsMute grants ∧ s.outputs = (s.receiver.queue m).2 ++ grants := by
  obtain ⟨hcomplete, hwithin⟩ := hwhole
  cases handles_of_onTransfer h hevent with
  | passed hjoined => exact absurd hcomplete (by rw [hjoined]; decide)
  | aborted hjoined haborted =>
    exact absurd hcomplete (by simp [completes_eq_false hjoined (Or.inl haborted)])
  | exceeding hjoined hkept hlimit =>
    exact absurd (hlimit.symm.trans (exceedsLimit_eq_none hwithin)) (Option.some_ne_none _)
  | more hjoined hkept hmore =>
    exact absurd hcomplete (by simp [completes_eq_false hjoined (Or.inr hmore)])
  | @last m hjoined hkept hmore hm hsize hchange =>
    obtain ⟨unsettled, hqueue⟩ := queue_eq m s.receiver.opened
    obtain ⟨credit, hrefill⟩ := refill_eq (s.receiver.opened.queue m).1
    obtain ⟨hunsettled, houtputs⟩ := queue_opened m s.receiver
    refine ⟨m, hm, ?_, ?_, ?_, (s.receiver.opened.queue m).1.refill.2, (spares_refill _).isMute, ?_⟩
    · rw [nextParts, next, hchange, hrefill, hqueue]
      rfl
    · rw [next, hchange, hrefill, hqueue]
      rfl
    · rw [next, hchange, hrefill]
      exact hunsettled
    · rw [outputs, hchange, houtputs]

/-- Without the last transfer of a delivery nothing is queued or settled. -/
theorem spares_of_onTransfer (h : s.receiver.Gathers s.parts) (hevent : s.event = .onTransfer t)
    (hpart : ¬ s.Completes) :
    s.next.received = s.receiver.received ∧ s.receiver.Spares (s.next, s.outputs) := by
  unfold next outputs
  cases handles_of_onTransfer h hevent with
  | passed hjoined hchange =>
    rw [hchange]
    exact ⟨rfl, s.receiver.spares_self⟩
  | aborted hjoined haborted hchange =>
    obtain ⟨hunsettled, hmute⟩ := s.receiver.opened.spares_refill
    rw [hchange]
    exact ⟨received_refill _, hunsettled, hmute⟩
  | exceeding hjoined hkept hlimit hstate hchange =>
    rw [hchange]
    exact ⟨rfl, rfl, Endpoint.isMute_detach _ _ _⟩
  | @more m hjoined hkept hmore hm hsize hchange =>
    obtain ⟨hunsettled, hmute⟩ := spares_refill { s.receiver.opened with inProgress := some m }
    rw [hchange]
    exact ⟨received_refill _, hunsettled, hmute⟩
  | last hjoined hkept hmore hm hsize hchange =>
    refine absurd ⟨?_, ?_⟩ hpart
    · rw [hjoined, Transfer.completes_snoc, hkept, hmore]
      rfl
    · rwa [← payload_of_ofParts hm]

end Step

end Receiver

end Link

end Amqp
