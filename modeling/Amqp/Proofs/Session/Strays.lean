import Amqp.Proofs.Session.Terms

/-!
# Stray frames

A session checks a frame for its links before it acts on it.  What it refuses it refuses with a
fault that concerns it only, with two exceptions, the stray frames: a transfer for a link end that
cannot take it, and an attach for which the settings give no link end (`Session.isStray`).  These
end the connection (`dispatch_of_isStray`); every other frame meets terms under which a session has
no faults but its own (`admits_of_spared`).  A discarded session has lost the deliveries in
progress, so there the rest of a delivery is stray (`isStray_transfer_of_discarded`).
-/

namespace Amqp

/-! ## Transfers -/

namespace Link

namespace Receiver

/-- Whether an end that waits for a delivery to start cannot take a transfer: the transfer does not
start one.  An end that detaches drops transfers. -/
def isStray (t : Transfer) (r : Receiver) : Bool :=
  r.endpoint.state ≠ .detachSent && r.endpoint.state ≠ .error && r.inProgress.isNone &&
    t.deliveryId.isNone

theorem isStray_iff {t : Transfer} {r : Receiver} :
    r.isStray t = true ↔ ¬ r.IsDetaching ∧ r.inProgress.or (Message.start t) = none := by
  simp [isStray, IsDetaching, Message.start, and_assoc]

/-- A transfer is taken unless it is stray. -/
theorem onTransfer_cases (t : Transfer) (r : Receiver) :
    (r.isStray t = false ∧ ∃ change, r.onTransfer t = .ok change) ∨
      r.isStray t = true ∧
        r.onTransfer t = .error (.malformed (.missingDeliveryId r.endpoint.name)) := by
  by_cases hstray : r.isStray t = true
  · obtain ⟨hstate, hnone⟩ := isStray_iff.1 hstray
    exact Or.inr ⟨hstray, onTransfer_of_none hstate hnone⟩
  refine Or.inl ⟨Bool.eq_false_iff.2 hstray, ?_⟩
  have htakes := takes_onTransfer t r
  cases hresult : r.onTransfer t with
  | ok change => exact ⟨change, rfl⟩
  | error f =>
    rw [hresult] at htakes
    cases htakes with
    | refused hstate hnone => exact absurd (isStray_iff.2 ⟨hstate, hnone⟩) hstray

end Receiver

/-- Whether a link end cannot take a transfer.  A sending end takes none. -/
def isStray (t : Transfer) : Link → Bool
  | sender _ => true
  | receiver r => r.isStray t

theorem onTransfer_receiver (t : Transfer) (r : Receiver) :
    (receiver r).onTransfer t =
      (r.onTransfer t).map fun change => (receiver change.1, change.2) := by
  cases h : r.onTransfer t with
  | ok change =>
    change (r.onTransfer t >>= fun change => pure (receiver change.1, change.2)) = _
    rw [h]
    rfl
  | error f =>
    change (r.onTransfer t >>= fun change => pure (receiver change.1, change.2)) = _
    rw [h]
    rfl

theorem onTransfer_cases (t : Transfer) (l : Link) :
    (l.isStray t = false ∧ ∃ change, l.onTransfer t = .ok change) ∨
      l.isStray t = true ∧ ∃ f, l.onTransfer t = .error f ∧ f.isSessionLocal = false := by
  cases l with
  | sender v => exact Or.inr ⟨rfl, _, rfl, rfl⟩
  | receiver r =>
    rw [onTransfer_receiver]
    rcases r.onTransfer_cases t with ⟨hspared, change, hchange⟩ | ⟨hstray, hfault⟩
    · rw [hchange]
      exact Or.inl ⟨hspared, _, rfl⟩
    · rw [hfault]
      exact Or.inr ⟨hstray, _, rfl, rfl⟩

/-- An end that has lost its delivery in progress cannot take the rest of it. -/
theorem isStray_of_followSession {state : Session.State}
    (hover : state = .discarding ∨ state = .unmapped) (t : Transfer) (l : Link) :
    (l.followSession state).1.isStray t = (l.sender?.isSome || t.deliveryId.isNone) := by
  rcases hover with rfl | rfl <;> cases l <;> rfl

end Link

/-! ## Attaches -/

theorem SenderSettleMode.isSessionLocal_of_ofCode {code : UInt8} {f : Fault}
    (h : ofCode code = .error f) : f.isSessionLocal = false := by
  unfold ofCode at h
  split_ifs at h
  cases h
  rfl

theorem ReceiverSettleMode.isSessionLocal_of_ofCode {code : UInt8} {f : Fault}
    (h : ofCode code = .error f) : f.isSessionLocal = false := by
  unfold ofCode at h
  split_ifs at h
  cases h
  rfl

/-- Whether the settings of links name settle modes. -/
def Settings.Link.namesModes (settings : Settings.Link) : Bool :=
  (SenderSettleMode.ofCode settings.senderSettleMode).toBool &&
    (ReceiverSettleMode.ofCode settings.receiverSettleMode).toBool

namespace Link

variable (handle : UInt32) (settings : Settings.Link)

theorem Endpoint.create_cases (name : String) (role : Role) (source : Option Source)
    (target : Option Target) :
    (settings.namesModes = true ∧ ∃ e, create name handle role source target settings = .ok e) ∨
      settings.namesModes = false ∧
        ∃ f, create name handle role source target settings = .error f ∧
          f.isSessionLocal = false := by
  unfold create Settings.Link.namesModes
  cases hsender : SenderSettleMode.ofCode settings.senderSettleMode with
  | error f =>
    exact Or.inr ⟨rfl, f, rfl, SenderSettleMode.isSessionLocal_of_ofCode hsender⟩
  | ok mode =>
    cases hreceiver : ReceiverSettleMode.ofCode settings.receiverSettleMode with
    | error f =>
      exact Or.inr ⟨rfl, f, rfl, ReceiverSettleMode.isSessionLocal_of_ofCode hreceiver⟩
    | ok mode => exact Or.inl ⟨rfl, _, rfl⟩

/-- There is a link end for an attach if the settings name settle modes. -/
theorem ofAttach_cases (attach : Attach) :
    (settings.namesModes = true ∧ ∃ l, ofAttach attach handle settings = .ok l) ∨
      settings.namesModes = false ∧
        ∃ f, ofAttach attach handle settings = .error f ∧ f.isSessionLocal = false := by
  have hcases (role : Role) := Endpoint.create_cases handle settings attach.name role attach.source
    attach.target
  unfold ofAttach
  cases attach.role.opposite with
  | sender =>
    unfold Sender.create
    rcases hcases .sender with ⟨hnames, e, he⟩ | ⟨hnames, f, hf, hfatal⟩
    · exact Or.inl ⟨hnames, _, by rw [he]; rfl⟩
    · exact Or.inr ⟨hnames, f, by rw [hf]; rfl, hfatal⟩
  | receiver =>
    unfold Receiver.create
    rcases hcases .receiver with ⟨hnames, e, he⟩ | ⟨hnames, f, hf, hfatal⟩
    · exact Or.inl ⟨hnames, _, by rw [he]; rfl⟩
    · exact Or.inr ⟨hnames, f, by rw [hf]; rfl, hfatal⟩

end Link

/-! ## Frames of sessions -/

namespace Session

variable {s : Session}

theorem isSessionLocal_of_freeHandle {f : Fault} (h : s.freeHandle = .error f) :
    f.isSessionLocal = true := by
  unfold freeHandle at h
  dsimp only at h
  split_ifs at h
  cases h
  rfl

/-- A new link end fails for want of a handle, or because of the settings. -/
theorem attachNew_cases (attach : Attach) (s : Session) :
    ((s.freeHandle.toBool && !s.linkSettings.namesModes) = false ∧
        ∀ f, s.attachNew attach = .error f → f.isSessionLocal = true) ∨
      (s.freeHandle.toBool && !s.linkSettings.namesModes) = true ∧
        ∃ f, s.attachNew attach = .error f ∧ f.isSessionLocal = false := by
  unfold attachNew
  cases hhandle : s.freeHandle with
  | error f =>
    refine Or.inl ⟨rfl, fun f' hf' => ?_⟩
    cases hf'
    exact isSessionLocal_of_freeHandle hhandle
  | ok handle =>
    rcases Link.ofAttach_cases handle s.linkSettings attach with
      ⟨hnames, l, hl⟩ | ⟨hnames, f, hf, hfatal⟩
    · rw [hnames]
      refine Or.inl ⟨rfl, fun f hf => ?_⟩
      simp only [bind, Except.bind, hl] at hf
      cases hf
    · rw [hnames]
      refine Or.inr ⟨rfl, f, ?_, hfatal⟩
      simp only [bind, Except.bind, hf]

/-- Whether a frame for the links of a session is stray: a transfer that the link end on its handle
cannot take, or an attach for a new link end that the settings of links rule out. -/
def isStray (p : Performative) (s : Session) : Bool :=
  match p with
  | .transfer t => ((s.inputHandles.get? t.handle).bind s.links.get?).any (Link.isStray t)
  | .attach v =>
    (s.inputHandles.get? v.handle).all (· = v.name) && (s.links.get? v.name).isNone &&
      (s.freeHandle.toBool && !s.linkSettings.namesModes)
  | _ => false

theorem yields_iff {handle : UInt32} {name : String} :
    s.Yields handle name ↔ (s.inputHandles.get? handle).all (· = name) = true := by
  unfold Yields
  cases s.inputHandles.get? handle <;> simp

/-- A session meets the faults of a frame that is not stray by itself. -/
theorem admits_of_spared {κ : Type} {T : Terms κ}
    (hraises : ∀ f, f.isSessionLocal = true → T.raises f) {p : Performative}
    (h : s.isStray p = false) : T.Admits s p := by
  cases p with
  | attach v =>
    intro hyields hname f hf
    unfold isStray at h
    simp only [yields_iff.1 hyields, hname, Option.isNone_none, Bool.true_and] at h
    rcases attachNew_cases v s with ⟨-, hlocal⟩ | ⟨hstray, -⟩
    · exact hraises f (hlocal f hf)
    · cases h.symm.trans hstray
  | transfer t =>
    intro name l hname hl f hf
    have hspared : l.isStray t = false := by
      simpa [isStray, hname, hl] using h
    rcases l.onTransfer_cases t with ⟨-, change, hchange⟩ | ⟨hstray, -⟩
    · cases hf.symm.trans hchange
    · cases hspared.symm.trans hstray
  | _ => trivial

section

variable {κ : Type} [FrameCarrier κ]

theorem onTransfer_of_error {t : Transfer} {name : String} {l : Link} {f : Fault}
    (hname : s.inputHandles.get? t.handle = some name) (hl : s.links.get? name = some l)
    (hf : l.onTransfer t = .error f) (k : κ) :
    onTransfer t (s, k) = .error (.fault f) (s.countIncoming, k) := by
  have hname' : s.countIncoming.inputHandles.get? t.handle = some name := hname
  have hl' : s.countIncoming.links.get? name = some l := hl
  unfold onTransfer
  rw [Acting.update_bind, Acting.current_bind, hname']
  dsimp only
  rw [link_eq_ok hl', Action.ofExcept_ok_bind, hf]
  rfl

theorem onAttach_of_error {attach : Attach} {f : Fault}
    (hyields : s.Yields attach.handle attach.name) (hname : s.links.get? attach.name = none)
    (hf : s.attachNew attach = .error f) (k : κ) :
    onAttach attach (s, k) = .error (.fault f) (s, k) := by
  rw [onAttach_of_new hyields hname, hf]
  rfl

/-- A stray frame fails with a fault that does not concern the session only, before anything is
sent. -/
theorem dispatch_of_isStray {p : Performative} (h : s.isStray p = true) (remoteChannel : UInt16)
    (k : κ) :
    ∃ f s', dispatch remoteChannel p (s, k) = .error (.fault f) (s', k) ∧
      s'.state = s.state ∧ f.isSessionLocal = false := by
  cases p with
  | attach v =>
    unfold isStray at h
    simp only [Bool.and_eq_true, Option.isNone_iff_eq_none] at h
    obtain ⟨⟨hyields, hname⟩, hhandle, hmodes⟩ := h
    rcases attachNew_cases v s with ⟨hspared, -⟩ | ⟨-, f, hf, hfatal⟩
    · rw [hhandle, hmodes] at hspared
      cases hspared
    · exact ⟨f, s, onAttach_of_error (yields_iff.2 hyields) hname hf k, rfl, hfatal⟩
  | transfer t =>
    unfold isStray at h
    obtain ⟨l, hlink, hstray⟩ := (Option.any_eq_true _ _).1 h
    obtain ⟨name, hname, hl⟩ := Option.bind_eq_some_iff.1 hlink
    rcases l.onTransfer_cases t with ⟨hspared, -⟩ | ⟨-, f, hf, hfatal⟩
    · cases hstray.symm.trans hspared
    · exact ⟨f, _, onTransfer_of_error hname hl hf k, rfl, hfatal⟩
  | _ => cases h

end

/-- Right after a session is discarded, the stray transfers on the handle of a link end are all
those for a sending end, and for a receiving end the rest of a delivery. -/
theorem isStray_transfer_of_discarded {t : Transfer} {name : String} {l : Link}
    (hname : s.inputHandles.get? t.handle = some name) (hl : s.links.get? name = some l) :
    (s.enter .discarding).1.isStray (.transfer t) =
      (l.sender?.isSome || t.deliveryId.isNone) := by
  have hlink : (s.enter .discarding).1.links.get? name = some (l.followSession .discarding).1 :=
    (Table.get?_mapValues _ _ _).trans (congrArg (Option.map _) hl)
  have hhandle : (s.enter .discarding).1.inputHandles.get? t.handle = some name := hname
  rw [← Link.isStray_of_followSession (Or.inl rfl)]
  simp only [isStray, hhandle, Option.bind_some, hlink, Option.any_some]

end Session

end Amqp
