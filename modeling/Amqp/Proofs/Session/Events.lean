import Amqp.Proofs.Session.Moves

/-!
# Events in the life of a session

An `Event` is a call of the session's owner, a change of the connection, or a frame of the peer.  A
session prepares for it by what it registers or learns at once (`Event.prepare`); from there on it
only makes moves, also when its carrier refuses a frame on the way (`ran_perform`).  `run` is what a
session and its recorder become by events in a row.
-/

namespace Amqp.Session

open Acting

variable {κ : Type} [FrameCarrier κ]

/-! ## Added links -/

/-- A handle that is given to a new link is not in use. -/
theorem get?_freeHandle {s : Session} {handle : UInt32} (h : s.freeHandle = .ok handle) :
    s.outputHandles.get? handle = none := by
  unfold freeHandle at h
  dsimp only at h
  split_ifs at h with hfull
  cases h
  have hlt := Nat.lt_of_not_le (not_or.1 hfull).2
  refine Table.get?_eq_none_iff.2 fun hmem => ?_
  have hused := List.mem_map_of_mem (f := UInt32.toNat) hmem
  rw [UInt32.toNat_ofNat_of_lt' (Nat.lt_trans hlt s.handleMax.toNat_lt)] at hused
  exact firstUnused_notMem _ _ hused

/-- Whether a session comes about by registering a new link under a name, on a handle that is free
and on none of the peer's. -/
def Adds (name : String) (s s' : Session) : Prop :=
  ∃ l handle, l.place = ⟨name, handle, none⟩ ∧ s.outputHandles.get? handle = none ∧
    s' = s.register l

/-- A sending link is registered on the next handle. -/
theorem registers_addSender {unique target : String} {settings : Option Settings.Link}
    {s : Session} {result : String × Session}
    (h : s.addSender unique target settings = .ok result) :
    ∃ l handle, s.freeHandle = .ok handle ∧ l.place = ⟨"sender-link-" ++ unique, handle, none⟩ ∧
      result.2 = s.register l := by
  unfold addSender at h
  cases hhandle : s.freeHandle with
  | error f =>
    rw [hhandle] at h
    cases h
  | ok handle =>
    cases hlink : Link.Sender.create ("sender-link-" ++ unique) handle
        (some { address := some ("sender-link-" ++ unique) }) (some { address := some target })
        (settings.getD s.linkSettings) with
    | error f =>
      simp only [hhandle, hlink, bind, Except.bind] at h
      cases h
    | ok v =>
      simp only [hhandle, hlink, bind, Except.bind] at h
      cases h
      exact ⟨.sender v, handle, rfl, Link.Sender.place_create hlink, rfl⟩

/-- A receiving link is registered on the next handle. -/
theorem registers_addReceiver {unique source : String} {settings : Option Settings.Link}
    {s : Session} {result : String × Session}
    (h : s.addReceiver unique source settings = .ok result) :
    ∃ l handle, s.freeHandle = .ok handle ∧ l.place = ⟨"receiver-link-" ++ unique, handle, none⟩ ∧
      result.2 = s.register l := by
  unfold addReceiver at h
  cases hhandle : s.freeHandle with
  | error f =>
    rw [hhandle] at h
    cases h
  | ok handle =>
    cases hlink : Link.Receiver.create ("receiver-link-" ++ unique) handle
        (some { address := some source }) (some { address := some ("receiver-link-" ++ unique) })
        (settings.getD s.linkSettings) with
    | error f =>
      simp only [hhandle, hlink, bind, Except.bind] at h
      cases h
    | ok v =>
      simp only [hhandle, hlink, bind, Except.bind] at h
      cases h
      exact ⟨.receiver v, handle, rfl, Link.Receiver.place_create hlink, rfl⟩

theorem adds_addSender {unique target : String} {settings : Option Settings.Link} {s : Session}
    {result : String × Session} (h : s.addSender unique target settings = .ok result) :
    Adds ("sender-link-" ++ unique) s result.2 := by
  obtain ⟨l, handle, hhandle, hplace, hregister⟩ := registers_addSender h
  exact ⟨l, handle, hplace, get?_freeHandle hhandle, hregister⟩

theorem adds_addReceiver {unique source : String} {settings : Option Settings.Link} {s : Session}
    {result : String × Session} (h : s.addReceiver unique source settings = .ok result) :
    Adds ("receiver-link-" ++ unique) s result.2 := by
  obtain ⟨l, handle, hhandle, hplace, hregister⟩ := registers_addReceiver h
  exact ⟨l, handle, hplace, get?_freeHandle hhandle, hregister⟩

/-! ## Frames of the peer -/

theorem runs_commit_withLink {s : Session} {name : String} {l l' : Link}
    (outputs : List Link.Output) (h : s.links.get? name = some l) (hplace : l'.place = l.place) :
    Runs (κ := κ) .links (commit (s.withLink name l', outputs)) s fun _ _ => True :=
  (runs_commit (move_withLink h hplace).moves).any

/-- The local end of a link that the peer attaches is registered on the next handle. -/
theorem registers_attachNew {attach : Attach} {s : Session} {change : Session × List Link.Output}
    (h : s.attachNew attach = .ok change) :
    ∃ (l : Link) (handle : UInt32), s.freeHandle = .ok handle ∧
      l.place = ⟨attach.name, handle, none⟩ ∧
      change = (s.register (l.onAttach attach).1, (l.onAttach attach).2) := by
  unfold attachNew at h
  cases hhandle : s.freeHandle with
  | error f =>
    rw [hhandle] at h
    cases h
  | ok handle =>
    cases hlink : Link.ofAttach attach handle s.linkSettings with
    | error f =>
      simp only [hhandle, hlink, bind, Except.bind] at h
      cases h
    | ok l =>
      simp only [hhandle, hlink, bind, Except.bind] at h
      cases h
      exact ⟨l, handle, rfl, Link.place_ofAttach hlink, rfl⟩

theorem move_attachNew {attach : Attach} {s : Session} {change : Session × List Link.Output}
    (h : s.attachNew attach = .ok change) (hname : s.links.get? attach.name = none)
    (hremote : ∀ n, s.inputHandles.get? attach.handle = some n → n = attach.name) :
    Move s [] change.1 := by
  obtain ⟨l, handle, hhandle, hl, rfl⟩ := registers_attachNew h
  have hplace : (l.onAttach attach).1.place = ⟨attach.name, handle, some attach.handle⟩ := by
    rw [Link.place_onAttach, hl]
  refine .register ?_ ?_ ?_
  · rw [hplace]
    exact hname
  · rw [hplace]
    exact get?_freeHandle hhandle
  · rw [hplace]
    intro r n hr hn
    cases hr
    exact hremote n hn

theorem runs_attachKnown {attach : Attach} {s : Session} {l : Link}
    (hlink : s.links.get? attach.name = some l)
    (hremote : ∀ n, s.inputHandles.get? attach.handle = some n → n = attach.name) :
    Runs (κ := κ) .answer (commit (s.attachKnown attach l)) s fun _ _ => True :=
  (runs_commit (Move.reattach hlink hremote).moves).any.weaken Talk.answer_of_links

theorem runs_attachNew {attach : Attach} {s : Session} (hlink : s.links.get? attach.name = none)
    (hremote : ∀ n, s.inputHandles.get? attach.handle = some n → n = attach.name) :
    Runs (κ := κ) .answer (Action.ofExcept (s.attachNew attach) >>= commit) s fun _ _ => True := by
  refine runs_ofExcept_bind fun change hchange => ?_
  have hmove := move_attachNew hchange hlink hremote
  exact (runs_commit hmove.moves).any.weaken Talk.answer_of_links

theorem runs_onAttach (attach : Attach) (s : Session) :
    Runs (κ := κ) .answer (onAttach attach) s fun _ _ => True := by
  intro r
  rcases onAttach_cases (κ := Recorder κ) attach s with
    ⟨holder, heq⟩ | ⟨hremote, ⟨l, hlink, heq⟩ | ⟨hlink, heq⟩⟩ <;> rw [heq]
  · exact (runs_abort _ _ s).weaken Talk.answer_of_closing r
  · exact runs_attachKnown hlink hremote r
  · exact runs_attachNew hlink hremote r

theorem move_spreadFlow (flow : Flow) (s : Session) : Move s [] (s.spreadFlow flow).1 := by
  unfold spreadFlow
  split_ifs
  · refine .relink (samePlaces_visit (fun l => ?_) _ _)
    split_ifs
    · rfl
    · exact Link.place_onFlow flow l
  · exact .relink fun _ => rfl

/-- What the peer's flow says of its windows is learned before any move. -/
theorem ran_onFlow (flow : Flow) (s : Session) (r : Recorder κ) :
    Ran .answer (s.learnFlow flow) r (fun _ _ => True) (onFlow flow (s, r)) := by
  unfold onFlow
  rw [update_bind]
  refine runs_current_bind (s := s.learnFlow flow) ?_ r
  cases flow.handle with
  | none => exact (runs_commit (move_spreadFlow flow _).moves).any.weaken Talk.answer_of_links
  | some handle =>
    dsimp only
    cases (s.learnFlow flow).inputHandles.get? handle with
    | none => exact (runs_abort _ _ _).weaken Talk.answer_of_closing
    | some name =>
      refine runs_ofExcept_bind fun l hl => ?_
      have hcommit := runs_commit_withLink (κ := κ) (l.onFlow flow).2 (links_of_link hl)
        (Link.place_onFlow flow l)
      exact hcommit.weaken Talk.answer_of_links

theorem runs_replenish (s : Session) : Runs (κ := κ) .links replenish s fun _ _ => True := by
  unfold replenish
  refine runs_current_bind ?_
  split_ifs
  · exact runs_update_bind Move.replenish.moves (runs_sendFlow none _).any
  · exact runs_pure trivial

/-- A transfer is counted before any move. -/
theorem ran_onTransfer (t : Transfer) (s : Session) (r : Recorder κ) :
    Ran .answer s.countIncoming r (fun _ _ => True) (onTransfer t (s, r)) := by
  unfold onTransfer
  rw [update_bind]
  refine runs_current_bind (s := s.countIncoming) ?_ r
  cases s.countIncoming.inputHandles.get? t.handle with
  | none => exact (runs_abort _ _ _).weaken Talk.answer_of_closing
  | some name =>
    refine runs_ofExcept_bind fun l hl => runs_ofExcept_bind fun change hchange => ?_
    have hcommit := runs_commit_withLink (κ := κ) change.2 (links_of_link hl)
      (Link.place_onTransfer hchange)
    exact (hcommit.bind Talk.links_then_links fun _ s' _ => runs_replenish s').weaken
      Talk.answer_of_links

theorem runs_onDisposition (d : Disposition) (s : Session) :
    Runs (κ := κ) .links (onDisposition d) s fun _ _ => True := by
  unfold onDisposition
  refine runs_current_bind ?_
  have hplaces := samePlaces_visit (Link.place_onDisposition d) s.inputHandles.values s.links
  exact (runs_commit (Move.relink hplaces).moves).any

theorem runs_onDetach (detach : Detach) (s : Session) :
    Runs (κ := κ) .answer (onDetach detach) s fun _ _ => True := by
  unfold onDetach
  refine runs_current_bind ?_
  cases s.inputHandles.get? detach.handle with
  | none => exact (runs_abort _ _ _).weaken Talk.answer_of_closing
  | some name =>
    refine runs_ofExcept_bind fun l hl => ?_
    have hcommit := runs_commit_withLink (κ := κ) (l.onDetach detach).2 (links_of_link hl)
      (Link.place_onDetach detach l)
    refine (hcommit.bind (Talk.then_silent _) fun _ s' _ => ?_).weaken Talk.answer_of_links
    split_ifs
    · exact (runs_update (Move.remove name).moves).any
    · exact runs_pure trivial

/-! ## Calls of the owner -/

theorem runs_attach (name : String) (s : Session) :
    Runs (κ := κ) (if s.state = .mapped then .links else .silent) (attach name) s
      fun _ _ => True := by
  unfold attach
  refine runs_current_bind (runs_ofExcept_bind fun l hl => ?_)
  split_ifs
  · exact runs_commit_withLink _ (links_of_link hl) (Link.place_attach l)
  · refine (runs_update (move_withLink (links_of_link hl) ?_).moves).any
    exact Link.place_withEndpoint _ l

theorem runs_detach (name : String) (close : Bool) (error : Option ErrorInfo) (s : Session) :
    Runs (κ := κ) .links (detach name close error) s fun _ _ => True := by
  unfold detach
  refine runs_current_bind (runs_ofExcept_bind fun l hl => ?_)
  split_ifs
  · exact (runs_update (Move.remove name).moves).any.weaken (Talk.of_silent _)
  · exact runs_commit_withLink _ (links_of_link hl) (Link.place_detach close error l)

theorem runs_grantCredit (name : String) (credit : UInt32) (s : Session) :
    Runs (κ := κ) .links (grantCredit name credit) s fun _ _ => True := by
  unfold grantCredit
  refine runs_current_bind (runs_ofExcept_bind fun v hv => runs_ofExcept_bind fun change h => ?_)
  have hplace : (Link.receiver change.1).place = (Link.receiver v).place :=
    Link.Receiver.place_grant h
  exact runs_commit_withLink change.2 (links_of_receiver hv) hplace

theorem runs_settle (name : String) (deliveryId : UInt32) (state : DeliveryState) (s : Session) :
    Runs (κ := κ) .links (settle name deliveryId state) s fun _ _ => True := by
  unfold settle
  refine runs_current_bind (runs_ofExcept_bind fun v hv => runs_ofExcept_bind fun change h => ?_)
  have hplace : (Link.receiver change.1).place = (Link.receiver v).place :=
    congrArg Link.Endpoint.place (Link.Receiver.endpoint_settle h)
  exact runs_commit_withLink change.2 (links_of_receiver hv) hplace

/-! ### Deliveries -/

/-- Only the first transfer of a delivery has a delivery id. -/
theorem deliveryId_of_mem_continuations {handle : UInt32} {more : Bool} {ps : List Bytes}
    {t : Transfer} (h : t ∈ Transfer.continuations handle more ps) : t.deliveryId = none := by
  obtain ⟨p, -, more', rfl⟩ := Transfer.eq_of_mem_continuations h
  rfl

theorem stamp_split {t : Transfer} {maxFrameSize : UInt32} {ts : List Transfer}
    (deliveryId : UInt32) (h : t.split maxFrameSize = .ok ts) :
    ∃ first rest, stamp deliveryId ts = first :: rest ∧ first.deliveryId = some deliveryId ∧
      ∀ u ∈ rest, u.deliveryId = none := by
  obtain ⟨capacity, -, -, ⟨-, rfl⟩ | ⟨ps, -, -, -, rfl⟩⟩ := Transfer.split_cases h
  · exact ⟨_, [], rfl, rfl, fun u hu => by cases hu⟩
  · exact ⟨_, _, rfl, rfl, fun u hu => deliveryId_of_mem_continuations hu⟩

theorem runs_sendTransfers {ts : List Transfer} {s : Session}
    (hwindow : (ts.length : Int) ≤ s.remoteIncomingWindow) (hid : ∀ t ∈ ts, t.deliveryId = none) :
    Runs (κ := κ) .continuation (sendTransfers ts) s fun _ s' =>
      s'.links = s.links ∧ s'.remoteIncomingWindow = s.remoteIncomingWindow - ts.length := by
  induction ts generalizing s with
  | nil => exact runs_pure ⟨rfl, (Int.sub_zero _).symm⟩
  | cons t ts ih =>
    rw [List.length_cons] at hwindow ⊢
    have hmove : Move s [.transfer t] s.countOutgoing := .transfer (by omega)
    have hcount : s.countOutgoing.remoteIncomingWindow = s.remoteIncomingWindow - 1 := rfl
    have hrest := ih (s := s.countOutgoing) (by omega)
      fun u hu => hid u (List.mem_cons_of_mem t hu)
    refine runs_emit_bind hmove (fun _ => rfl) (hrest.mono fun _ s' h => ⟨h.1, ?_⟩) ?_
    · omega
    · rintro ps ⟨us, rfl, hus⟩
      exact ⟨t :: us, rfl, List.forall_mem_cons.2 ⟨hid t List.mem_cons_self, hus⟩⟩

/-- What a call leaves that has sent a delivery: it reports the id of the first transfer, and the
peer's window has become smaller. -/
def Reports (s : Session) (outcome : SendOutcome) (s' : Session) : Prop :=
  ∀ id, outcome = .sent id →
    id = s.nextOutgoingId ∧ s'.remoteIncomingWindow < s.remoteIncomingWindow

theorem reports_of_ne {s s' : Session} {outcome : SendOutcome} (h : ∀ id, outcome ≠ .sent id) :
    Reports s outcome s' := fun id hid => absurd hid (h id)

theorem runs_sendDelivery (t : Transfer) (s : Session) :
    Runs (κ := κ) (if s.state = .mapped then .delivery s.nextOutgoingId else .silent)
      (sendDelivery t) s fun outcome s' => s'.links = s.links ∧ Reports s outcome s' := by
  have hstop {k : Talk} {outcome : SendOutcome} (h : ∀ id, outcome ≠ .sent id) :
      Runs (κ := κ) k (pure outcome) s fun outcome s' =>
        s'.links = s.links ∧ Reports s outcome s' :=
    runs_pure ⟨rfl, reports_of_ne h⟩
  intro r
  unfold sendDelivery
  rw [Action.get_bind]
  dsimp only
  by_cases hstate : s.state ≠ .mapped
  · rw [if_pos hstate]
    exact hstop (by simp) r
  rw [if_neg hstate, if_pos (not_not.1 hstate)]
  by_cases hwindow : s.remoteIncomingWindow ≤ 0
  · rw [if_pos hwindow]
    exact hstop (by simp) r
  rw [if_neg hwindow]
  refine runs_ofExcept_bind (fun ts hts => ?_) r
  by_cases hroom : s.remoteIncomingWindow < ts.length
  · rw [if_pos hroom]
    exact hstop (by simp)
  rw [if_neg hroom]
  obtain ⟨first, rest, hstamp, hfirst, hrest⟩ := stamp_split s.nextOutgoingId hts
  have hlength := congrArg List.length hstamp
  rw [length_stamp, List.length_cons] at hlength
  have hmove : Move s [.transfer first] s.countOutgoing := .transfer (by omega)
  have hcount : s.countOutgoing.remoteIncomingWindow = s.remoteIncomingWindow - 1 := rfl
  have hsent : Runs (κ := κ) (.delivery s.nextOutgoingId) (sendTransfers (first :: rest)) s
      fun _ s' => s'.links = s.links ∧ s'.remoteIncomingWindow < s.remoteIncomingWindow := by
    have hmore := runs_sendTransfers (κ := κ) (s := s.countOutgoing) (by omega) hrest
    refine runs_emit_bind hmove (fun _ => rfl) (hmore.mono fun _ s' h => ⟨h.1, ?_⟩) ?_
    · omega
    · exact fun ps hps => Or.inr ⟨first, ps, rfl, hfirst, hps⟩
  rw [hstamp]
  refine hsent.bind (Talk.then_silent _) fun _ s' hs' => runs_pure ⟨hs'.1, fun id hid => ?_⟩
  cases hid
  exact ⟨rfl, hs'.2⟩

theorem runs_send (now : Nat) (name : String) (payload : Bytes) (settled : Bool) (s : Session) :
    Runs (κ := κ) (if s.state = .mapped then .delivery s.nextOutgoingId else .silent)
      (send now name payload settled) s fun outcome s' => Reports s outcome s' := by
  unfold send
  refine runs_current_bind ?_
  by_cases hstate : s.state ≠ .mapped
  · rw [if_pos hstate]
    exact runs_pure (reports_of_ne (by simp))
  rw [if_neg hstate, if_pos (not_not.1 hstate)]
  refine runs_ofExcept_bind fun v hv => runs_ofExcept_bind fun drafted hdraft => ?_
  obtain ⟨t | t, v'⟩ := drafted
  · exact runs_pure (reports_of_ne (by simp))
  have hlink := links_of_sender hv
  have hplace : (Link.sender v').place = (Link.sender v).place :=
    congrArg Link.Endpoint.place (Link.Sender.endpoint_draft hdraft)
  refine runs_update_bind (move_withLink hlink hplace).moves ?_
  have hmapped : (s.withLink name (.sender v')).state = .mapped := not_not.1 hstate
  have hdelivery := runs_sendDelivery (κ := κ) t (s.withLink name (.sender v'))
  rw [if_pos hmapped] at hdelivery
  refine hdelivery.bind (Talk.then_silent _) fun outcome s' hs' => ?_
  have hlink' : s'.links.get? name = some (.sender v') := by
    rw [hs'.1]
    exact (Table.get?_insert _ _ _ _).trans (if_pos rfl)
  cases outcome with
  | sent id =>
    have hbook : (Link.sender (v'.book id t now)).place = (Link.sender v').place :=
      Link.Sender.place_book id t now v'
    exact runs_update_bind (move_withLink hlink' hbook).moves (runs_pure hs'.2)
  | busy => exact runs_pure hs'.2
  | refused => exact runs_pure hs'.2

/-! ## Events -/

/-- What can happen to a session: its owner calls it, the state of the connection reaches it, a
frame of the peer arrives on one of the peer's channels, or the carrier changes. -/
inductive Event (κ : Type) where
  | begin (wait : Patience)
  | finish (error : Option ErrorInfo)
  | addSender (unique target : String) (settings : Option Settings.Link)
  | addReceiver (unique source : String) (settings : Option Settings.Link)
  | attach (name : String)
  | detach (name : String) (close : Bool) (error : Option ErrorInfo)
  | send (now : Nat) (name : String) (payload : Bytes) (settled : Bool)
  | sendDelivery (transfer : Transfer)
  | sendFlow (flow : Option Flow)
  | grantCredit (name : String) (credit : UInt32)
  | settle (name : String) (deliveryId : UInt32) (state : DeliveryState)
  | receive (name : String)
  | collectOutcome (name : String) (deliveryId : UInt32)
  | evaluate (now : Nat)
  | followConnection (connection : Connection.State)
  | dispatch (remoteChannel : UInt16) (p : Performative)
  | changeCarrier (change : κ → κ)

/-- Replaces the session by what a call makes of it. -/
def adopt {α : Type} (call : Session → Except Fault (α × Session)) : Acting κ Unit := do
  let (_, s) ← Action.ofExcept (call (← current))
  update fun _ => s

namespace Event

/-- What a session and a recorder do upon an event. -/
def perform : Event κ → Acting (Recorder κ) Unit
  | .begin wait => Session.begin wait
  | .finish error => Session.finish error
  | .addSender unique target settings => adopt (Session.addSender unique target settings)
  | .addReceiver unique source settings => adopt (Session.addReceiver unique source settings)
  | .attach name => Session.attach name
  | .detach name close error => Session.detach name close error
  | .send now name payload settled => do
    let _ ← Session.send now name payload settled
    return ()
  | .sendDelivery transfer => do
    let _ ← Session.sendDelivery transfer
    return ()
  | .sendFlow flow => Session.sendFlow flow
  | .grantCredit name credit => Session.grantCredit name credit
  | .settle name deliveryId state => Session.settle name deliveryId state
  | .receive name => adopt (Session.receive name)
  | .collectOutcome name deliveryId => adopt (Session.collectOutcome name deliveryId)
  | .evaluate now => update (Session.evaluate now)
  | .followConnection connection => update (Session.followConnection connection)
  | .dispatch remoteChannel p => Session.dispatch remoteChannel p
  | .changeCarrier change => fun (s, r) => .ok () (s, { r with carrier := change r.carrier })

/-- What a session registers or learns at once upon an event, before it makes any move. -/
def prepare (s : Session) : Event κ → Session
  | .addSender unique target settings =>
    (s.addSender unique target settings).toOption.elim s Prod.snd
  | .addReceiver unique source settings =>
    (s.addReceiver unique source settings).toOption.elim s Prod.snd
  | .dispatch _ (.begin v) => s.learnBegin v
  | .dispatch _ (.flow v) => s.learnFlow v
  | .dispatch _ (.transfer _) => s.countIncoming
  | _ => s

/-- The name of the link that an event adds. -/
def addedName? : Event κ → Option String
  | .addSender unique _ _ => some ("sender-link-" ++ unique)
  | .addReceiver unique _ _ => some ("receiver-link-" ++ unique)
  | _ => none

omit [FrameCarrier κ] in
/-- An event that adds a link registers it, or leaves the session as it is. -/
theorem adds_prepare {ev : Event κ} {name : String} (h : ev.addedName? = some name) (s : Session) :
    ev.prepare s = s ∨ Adds name s (ev.prepare s) := by
  cases ev with
  | addSender unique target settings =>
    cases h
    simp only [prepare]
    cases hadd : s.addSender unique target settings with
    | error f => exact Or.inl rfl
    | ok result => exact Or.inr (adds_addSender hadd)
  | addReceiver unique source settings =>
    cases h
    simp only [prepare]
    cases hadd : s.addReceiver unique source settings with
    | error f => exact Or.inl rfl
    | ok result => exact Or.inr (adds_addReceiver hadd)
  | _ => cases h

omit [FrameCarrier κ] in
/-- Before its moves a session registers a link, or takes in what a frame of the peer says, or
nothing. -/
theorem prepare_cases (ev : Event κ) (s : Session) :
    ev.prepare s = s ∨ (∃ name, Adds name s (ev.prepare s)) ∨
      (∃ v, ev.prepare s = s.learnBegin v) ∨ (∃ v, ev.prepare s = s.learnFlow v) ∨
      ev.prepare s = s.countIncoming := by
  cases hname : ev.addedName? with
  | some name => exact (adds_prepare hname s).imp_right fun hadds => Or.inl ⟨name, hadds⟩
  | none =>
    cases ev with
    | addSender | addReceiver => cases hname
    | dispatch remoteChannel p =>
      cases p with
      | begin v => exact Or.inr (Or.inr (Or.inl ⟨v, rfl⟩))
      | flow v => exact Or.inr (Or.inr (Or.inr (Or.inl ⟨v, rfl⟩)))
      | transfer v => exact Or.inr (Or.inr (Or.inr (Or.inr rfl)))
      | _ => exact Or.inl rfl
    | _ => exact Or.inl rfl

omit [FrameCarrier κ] in
theorem state_prepare (ev : Event κ) (s : Session) : (ev.prepare s).state = s.state := by
  rcases ev.prepare_cases s with h | ⟨name, l, handle, -, -, h⟩ | ⟨v, h⟩ | ⟨v, h⟩ | h <;>
    exact (congrArg Session.state h).trans rfl

/-- What a session may say upon an event. -/
def talk (s : Session) : Event κ → Talk
  | .begin _ => .opening
  | .finish _ => if s.state ≠ .unmapped ∧ s.state ≠ .discarding then .closing else .silent
  | .attach _ => if s.state = .mapped then .links else .silent
  | .send .. | .sendDelivery _ =>
    if s.state = .mapped then .delivery s.nextOutgoingId else .silent
  | .detach .. | .sendFlow _ | .grantCredit .. | .settle .. => .links
  | .dispatch _ (.begin _) => if s.state = .beginSent then .links else .opening
  | .dispatch _ (.endFrame _) => if s.state.isEnding then .silent else .closing
  | .dispatch _ (.attach _) | .dispatch _ (.flow _) | .dispatch _ (.transfer _)
  | .dispatch _ (.disposition _) | .dispatch _ (.detach _) => .answer
  | _ => .silent

/-- Whether an event is a Begin of the peer or a call to send one. -/
def isOpening : Event κ → Bool
  | .begin _ | .dispatch _ (.begin _) => true
  | _ => false

omit [FrameCarrier κ] in
/-- In one event a session sends frames of links, or a Begin with such frames after it if the event
is an opening, or a single End, or a delivery if it is mapped. -/
theorem holds_talk_cases {s : Session} {ev : Event κ} {ps : List Performative}
    (h : (ev.talk s).Holds ps) :
    Talk.links.Holds ps ∨ (ev.isOpening = true ∧ Talk.opening.Holds ps) ∨ Talk.closing.Holds ps ∨
      s.state = .mapped ∧ (Talk.delivery s.nextOutgoingId).Holds ps := by
  have hsilent (hps : Talk.silent.Holds ps) : Talk.links.Holds ps := Talk.of_silent _ hps
  cases ev with
  | begin wait => exact Or.inr (Or.inl ⟨rfl, h⟩)
  | finish error =>
    simp only [talk] at h
    split_ifs at h
    · exact Or.inr (Or.inr (Or.inl h))
    · exact Or.inl (hsilent h)
  | attach name =>
    simp only [talk] at h
    split_ifs at h
    · exact Or.inl h
    · exact Or.inl (hsilent h)
  | send | sendDelivery =>
    simp only [talk] at h
    split_ifs at h with hstate
    · exact Or.inr (Or.inr (Or.inr ⟨hstate, h⟩))
    · exact Or.inl (hsilent h)
  | detach | sendFlow | grantCredit | settle => exact Or.inl h
  | dispatch remoteChannel p =>
    cases p with
    | begin v =>
      simp only [talk] at h
      split_ifs at h
      · exact Or.inl h
      · exact Or.inr (Or.inl ⟨rfl, h⟩)
    | endFrame v =>
      simp only [talk] at h
      split_ifs at h
      · exact Or.inl (hsilent h)
      · exact Or.inr (Or.inr (Or.inl h))
    | openFrame | close => exact Or.inl (hsilent h)
    | _ =>
      rcases h with h | h
      · exact Or.inl h
      · exact Or.inr (Or.inr (Or.inl h))
  | _ => exact Or.inl (hsilent h)

omit [FrameCarrier κ] in
/-- In one event a session sends frames of links, or a Begin with such frames after it, or a single
End, or a delivery if it is mapped. -/
theorem holds_talk {s : Session} {ev : Event κ} {ps : List Performative}
    (h : (ev.talk s).Holds ps) :
    Talk.links.Holds ps ∨ Talk.opening.Holds ps ∨ Talk.closing.Holds ps ∨
      s.state = .mapped ∧ (Talk.delivery s.nextOutgoingId).Holds ps :=
  (holds_talk_cases h).imp_right (Or.imp_left And.right)

end Event

/-- A session and its recorder after an event, also after one that has stopped short. -/
def after (x : Session × Recorder κ) (ev : Event κ) : Session × Recorder κ :=
  stateAfter (ev.perform x)

/-- A session and its recorder after events in a row. -/
def run (evs : List (Event κ)) (x : Session × Recorder κ) : Session × Recorder κ :=
  evs.foldl after x

/-- How a session comes about: what it is created with, and the carrier of its frames. -/
structure Origin (κ : Type) where
  name : String
  channel : UInt16
  settings : Settings.Session
  linkSettings : Settings.Link
  properties : Option Entries := none
  carrier : κ

/-- A session that has just been created, and a record without frames. -/
def Origin.start (o : Origin κ) : Session × Recorder κ :=
  ({ create o.name o.channel o.settings o.linkSettings with properties := o.properties },
    { carrier := o.carrier })

/-- A session of default settings on a carrier that accepts every frame. -/
def plainOrigin : Origin Outbox where
  name := "session"
  channel := 3
  settings := {}
  linkSettings := {}
  carrier := { maxFrameSize := 512 }

/-- The Begin of a peer. -/
def peerBegin : Begin where
  nextOutgoingId := 0
  incomingWindow := 10
  outgoingWindow := 10

omit [FrameCarrier κ] in
/-- A call that is refused leaves the session as it is. -/
theorem adopt_eq {α : Type} (call : Session → Except Fault (α × Session)) (s : Session)
    (r : Recorder κ) :
    stateAfter (adopt call (s, r)) = ((call s).toOption.elim s Prod.snd, r) := by
  unfold adopt
  rw [current_bind]
  cases call s <;> rfl

omit [FrameCarrier κ] in
theorem ran_adopt {α : Type} {call : Session → Except Fault (α × Session)} {s s₀ : Session}
    (h : Moves s₀ [] ((call s).toOption.elim s Prod.snd)) (r : Recorder κ) :
    Ran .silent s₀ r (fun _ _ => True) (adopt call (s, r)) := by
  unfold Ran
  rw [adopt_eq]
  exact ⟨[], h, (List.append_nil _).symm, rfl, fun _ _ _ => trivial⟩

theorem moves_receive (name : String) (s : Session) :
    Moves s [] ((Session.receive name s).toOption.elim s Prod.snd) := by
  unfold Session.receive
  cases hv : s.receiver name with
  | error f => exact .refl s
  | ok v =>
    have hmove : Move s [] (s.withLink name (.receiver v.pop.2)) :=
      move_withLink (links_of_receiver hv) rfl
    exact hmove.moves

theorem moves_collectOutcome (name : String) (deliveryId : UInt32) (s : Session) :
    Moves s [] ((Session.collectOutcome name deliveryId s).toOption.elim s Prod.snd) := by
  unfold Session.collectOutcome
  cases hv : s.sender name with
  | error f => exact .refl s
  | ok v =>
    have hmove : Move s [] (s.withLink name (.sender (v.collect deliveryId).2)) :=
      move_withLink (links_of_sender hv) rfl
    exact hmove.moves

theorem moves_followConnection (connection : Connection.State) (s : Session) :
    Moves s [] (s.followConnection connection) := by
  unfold followConnection
  dsimp only
  split_ifs with h
  · exact (Move.turn (.discard h.2.1 h.2.2)).moves
  · exact .refl s

/-- Upon every event a session makes moves from where it has prepared for it, and keeps to the talk
of the event. -/
theorem ran_perform (ev : Event κ) (s : Session) (r : Recorder κ) :
    Ran (ev.talk s) (ev.prepare s) r (fun _ _ => True) (ev.perform (s, r)) := by
  cases ev with
  | begin wait => exact runs_begin wait s r
  | finish error => exact runs_finish error s r
  | addSender unique target settings => exact ran_adopt (.refl _) r
  | addReceiver unique source settings => exact ran_adopt (.refl _) r
  | attach name => exact runs_attach name s r
  | detach name close error => exact runs_detach name close error s r
  | send now name payload settled =>
    exact ((runs_send now name payload settled s).bind (Talk.then_silent _) fun _ _ _ =>
      runs_pure trivial) r
  | sendDelivery transfer =>
    exact ((runs_sendDelivery transfer s).bind (Talk.then_silent _) fun _ _ _ =>
      runs_pure trivial) r
  | sendFlow flow => exact (runs_sendFlow flow s).any r
  | grantCredit name credit => exact runs_grantCredit name credit s r
  | settle name deliveryId state => exact runs_settle name deliveryId state s r
  | receive name => exact ran_adopt (moves_receive name s) r
  | collectOutcome name deliveryId => exact ran_adopt (moves_collectOutcome name deliveryId s) r
  | evaluate now =>
    have hplaces := samePlaces_mapValues (Link.place_evaluate now) s.links
    exact (runs_update (Move.relink hplaces).moves).any r
  | followConnection connection =>
    exact (runs_update (moves_followConnection connection s)).any r
  | dispatch remoteChannel p =>
    cases p with
    | openFrame v => exact runs_raise _ s _ r
    | begin v => exact ran_onBegin remoteChannel v s r
    | attach v => exact runs_onAttach v s r
    | flow v => exact ran_onFlow v s r
    | transfer v => exact ran_onTransfer v s r
    | disposition v => exact (runs_onDisposition v s).weaken Talk.answer_of_links r
    | detach v => exact runs_onDetach v s r
    | endFrame v => exact runs_onEnd s r
    | close v => exact runs_raise _ s _ r
  | changeCarrier change =>
    exact ⟨[], .refl s, (List.append_nil _).symm, rfl, fun _ _ _ => trivial⟩

end Amqp.Session
