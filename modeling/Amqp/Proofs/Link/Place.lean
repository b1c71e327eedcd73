import Amqp.Proofs.Link.Deliveries

/-!
# The place of a link in its session

A session finds a link by its name and its two handles.  No event changes these three, except that
the peer's attach gives the link the peer's handle (`place_onAttach`).
-/

namespace Amqp.Link

/-- The name and the handles by which a session finds a link. -/
structure Place where
  name : String
  handle : UInt32
  remoteHandle : Option UInt32

/-- The place of an end in its session. -/
def Endpoint.place (e : Endpoint) : Place := ⟨e.name, e.handle, e.remoteHandle⟩

/-- The place of a link in its session. -/
def place (l : Link) : Place := l.endpoint.place

/-! ## Endpoints -/

namespace Endpoint

theorem place_create {name : String} {handle : UInt32} {role : Role} {source : Option Source}
    {target : Option Target} {settings : Settings.Link} {e : Endpoint}
    (h : create name handle role source target settings = .ok e) :
    e.place = ⟨name, handle, none⟩ := by
  unfold create at h
  cases hs : SenderSettleMode.ofCode settings.senderSettleMode with
  | error f => simp [hs, bind, Except.bind] at h
  | ok m =>
    cases hr : ReceiverSettleMode.ofCode settings.receiverSettleMode with
    | error f => simp [hs, hr, bind, Except.bind] at h
    | ok m' =>
      simp only [hs, hr, bind, Except.bind] at h
      cases h
      rfl

theorem place_followSession (state : Session.State) (e : Endpoint) :
    (e.followSession state).1.place = e.place := by
  cases state with
  | mapped =>
    unfold followSession
    split_ifs <;> rfl
  | _ => rfl

theorem place_onAttach (attach : Attach) (e : Endpoint) :
    (e.onAttach attach).1.place = { e.place with remoteHandle := some attach.handle } := by
  unfold onAttach
  dsimp only
  split <;> rfl

theorem place_detach (close : Bool) (error : Option ErrorInfo) (e : Endpoint) :
    (e.detach close error).1.place = e.place := by
  unfold detach
  split <;> rfl

theorem place_onDetach (detach : Detach) (e : Endpoint) :
    (e.onDetach detach).1.place = e.place := by
  unfold onDetach
  dsimp only
  split <;> rfl

end Endpoint

/-! ## Sending ends -/

namespace Sender

theorem place_create {name : String} {handle : UInt32} {source : Option Source}
    {target : Option Target} {settings : Settings.Link} {s : Sender}
    (h : create name handle source target settings = .ok s) :
    s.endpoint.place = ⟨name, handle, none⟩ := by
  unfold create at h
  cases he : Endpoint.create name handle .sender source target settings with
  | error f => simp [he, bind, Except.bind] at h
  | ok e =>
    simp only [he, bind, Except.bind] at h
    cases h
    exact Endpoint.place_create he

theorem endpoint_draft {payload : Bytes} {settled : Bool} {s s' : Sender} {t : Option Transfer}
    (h : s.draft payload settled = .ok (t, s')) : s'.endpoint = s.endpoint := by
  obtain ⟨-, rfl⟩ | ⟨-, -, rfl⟩ := draft_cases h <;> rfl

theorem place_book (deliveryId : UInt32) (t : Transfer) (now : Nat) (s : Sender) :
    (s.book deliveryId t now).endpoint.place = s.endpoint.place := by
  unfold book
  dsimp only
  split_ifs <;> rfl

theorem endpoint_conclude (outcome : Outcome) (ids : List UInt32) (s : Sender) :
    (s.conclude outcome ids).endpoint = s.endpoint := by
  induction ids generalizing s with
  | nil => rfl
  | cons id ids ih => exact ih _

theorem endpoint_evaluate (now : Nat) (s : Sender) : (s.evaluate now).endpoint = s.endpoint := by
  unfold evaluate
  split
  · rfl
  · exact endpoint_conclude _ _ _

theorem place_onFlow (flow : Flow) (s : Sender) :
    (s.onFlow flow).1.endpoint.place = s.endpoint.place := by
  unfold onFlow
  dsimp only
  split_ifs <;> split <;> rfl

theorem endpoint_onDisposition (d : Disposition) (s : Sender) :
    (s.onDisposition d).1.endpoint = s.endpoint := by
  unfold onDisposition
  dsimp only
  split_ifs
  · exact endpoint_conclude _ _ _
  · exact endpoint_conclude _ _ _
  · rfl

end Sender

/-! ## Receiving ends -/

namespace Receiver

theorem place_create {name : String} {handle : UInt32} {source : Option Source}
    {target : Option Target} {settings : Settings.Link} {r : Receiver}
    (h : create name handle source target settings = .ok r) :
    r.endpoint.place = ⟨name, handle, none⟩ := by
  unfold create at h
  cases he : Endpoint.create name handle .receiver source target settings with
  | error f => simp [he, bind, Except.bind] at h
  | ok e =>
    simp only [he, bind, Except.bind] at h
    cases h
    exact Endpoint.place_create he

theorem place_refill (r : Receiver) : r.refill.1.endpoint.place = r.endpoint.place := by
  unfold refill
  split_ifs <;> rfl

theorem place_grant {credit : UInt32} {r r' : Receiver} {outputs : List Output}
    (h : r.grant credit = .ok (r', outputs)) : r'.endpoint.place = r.endpoint.place := by
  unfold grant at h
  split_ifs at h
  cases h
  rfl

theorem endpoint_settle {deliveryId : UInt32} {state : DeliveryState} {r r' : Receiver}
    {outputs : List Output} (h : r.settle deliveryId state = .ok (r', outputs)) :
    r'.endpoint = r.endpoint := by
  unfold settle at h
  split_ifs at h
  cases h
  rfl

theorem place_followSession (state : Session.State) (r : Receiver) :
    (r.followSession state).1.endpoint.place = r.endpoint.place :=
  Endpoint.place_followSession state r.endpoint

theorem place_onAttach (attach : Attach) (r : Receiver) :
    (r.onAttach attach).1.endpoint.place =
      { r.endpoint.place with remoteHandle := some attach.handle } := by
  unfold onAttach
  dsimp only
  generalize he : (if attach.role = .sender then
      { r.endpoint with deliveryCount := attach.initialDeliveryCount.getD 0 }
    else r.endpoint) = e
  have hplace : e.place = r.endpoint.place := by
    rw [← he]
    split_ifs <;> rfl
  have hattach := e.place_onAttach attach
  rw [hplace] at hattach
  split
  · rename_i heq
    rw [heq] at hattach
    exact hattach
  · rename_i heq
    rw [heq] at hattach
    exact (place_refill _).trans hattach

theorem place_onFlow (flow : Flow) (r : Receiver) :
    (r.onFlow flow).1.endpoint.place = r.endpoint.place := by
  unfold onFlow
  dsimp only
  split
  · rfl
  · split_ifs <;> rfl

theorem place_opened (r : Receiver) : r.opened.endpoint.place = r.endpoint.place := by
  unfold opened
  dsimp only
  split_ifs <;> rfl

theorem endpoint_queue (m : Message) (r : Receiver) : (r.queue m).1.endpoint = r.endpoint := by
  unfold queue
  split_ifs <;> rfl

theorem place_of_takes {t : Transfer} {r : Receiver}
    {result : Except Fault (Receiver × List Output)} (h : Takes t r result)
    {change : Receiver × List Output} (hchange : result = .ok change) :
    change.1.endpoint.place = r.endpoint.place := by
  cases h with
  | dropped =>
    cases hchange
    rfl
  | refused => cases hchange
  | aborted =>
    cases hchange
    rw [place_refill, place_opened]
  | exceeding =>
    cases hchange
    exact (Endpoint.place_detach _ _ _).trans r.place_opened
  | more =>
    cases hchange
    rw [place_refill]
    exact r.place_opened
  | last =>
    cases hchange
    rw [place_refill, endpoint_queue, place_opened]

theorem place_onTransfer {t : Transfer} {r r' : Receiver} {outputs : List Output}
    (h : r.onTransfer t = .ok (r', outputs)) : r'.endpoint.place = r.endpoint.place :=
  place_of_takes (takes_onTransfer t r) h

theorem endpoint_onDisposition (d : Disposition) (r : Receiver) :
    (r.onDisposition d).endpoint = r.endpoint := by
  unfold onDisposition
  split_ifs <;> rfl

end Receiver

/-! ## Links -/

theorem place_withEndpoint (e : Endpoint) (l : Link) : (l.withEndpoint e).place = e.place := by
  cases l <;> rfl

theorem place_ofAttach {attach : Attach} {handle : UInt32} {settings : Settings.Link} {l : Link}
    (h : ofAttach attach handle settings = .ok l) : l.place = ⟨attach.name, handle, none⟩ := by
  unfold ofAttach at h
  cases hrole : attach.role.opposite with
  | sender =>
    simp only [hrole] at h
    cases hs : Sender.create attach.name handle attach.source attach.target settings with
    | error f =>
      rw [hs] at h
      cases h
    | ok v =>
      rw [hs] at h
      cases h
      exact Sender.place_create hs
  | receiver =>
    simp only [hrole] at h
    cases hr : Receiver.create attach.name handle attach.source attach.target settings with
    | error f =>
      rw [hr] at h
      cases h
    | ok v =>
      rw [hr] at h
      cases h
      exact Receiver.place_create hr

theorem place_followSession (state : Session.State) (l : Link) :
    (l.followSession state).1.place = l.place := by
  cases l with
  | sender v => exact Endpoint.place_followSession state v.endpoint
  | receiver v => exact Receiver.place_followSession state v

theorem place_attach (l : Link) : l.attach.1.place = l.place := by
  unfold attach
  dsimp only
  rw [place_withEndpoint, Endpoint.place_followSession]
  rfl

theorem place_detach (close : Bool) (error : Option ErrorInfo) (l : Link) :
    (l.detach close error).1.place = l.place := by
  unfold detach
  dsimp only
  rw [place_withEndpoint, Endpoint.place_detach]
  rfl

theorem place_evaluate (now : Nat) (l : Link) : (l.evaluate now).place = l.place := by
  cases l with
  | sender v => exact congrArg Endpoint.place (Sender.endpoint_evaluate now v)
  | receiver v => rfl

/-- The peer's attach gives the link the peer's handle. -/
theorem place_onAttach (attach : Attach) (l : Link) :
    (l.onAttach attach).1.place = { l.place with remoteHandle := some attach.handle } := by
  cases l with
  | sender v => exact Endpoint.place_onAttach attach v.endpoint
  | receiver v => exact Receiver.place_onAttach attach v

theorem place_onFlow (flow : Flow) (l : Link) : (l.onFlow flow).1.place = l.place := by
  cases l with
  | sender v => exact Sender.place_onFlow flow v
  | receiver v => exact Receiver.place_onFlow flow v

theorem place_onTransfer {t : Transfer} {l l' : Link} {outputs : List Output}
    (h : l.onTransfer t = .ok (l', outputs)) : l'.place = l.place := by
  cases l with
  | sender v => cases h
  | receiver v =>
    cases hv : v.onTransfer t with
    | error f => simp [onTransfer, hv, bind, Except.bind] at h
    | ok result =>
      obtain ⟨v', outputs'⟩ := result
      simp only [onTransfer, hv, bind, Except.bind] at h
      cases h
      exact Receiver.place_onTransfer hv

theorem place_onDisposition (d : Disposition) (l : Link) :
    (l.onDisposition d).1.place = l.place := by
  cases l with
  | sender v => exact congrArg Endpoint.place (Sender.endpoint_onDisposition d v)
  | receiver v => exact congrArg Endpoint.place (Receiver.endpoint_onDisposition d v)

theorem place_onDetach (detach : Detach) (l : Link) : (l.onDetach detach).1.place = l.place := by
  cases l with
  | sender v => exact Endpoint.place_onDetach detach v.endpoint
  | receiver v => exact Endpoint.place_onDetach detach v.endpoint

end Amqp.Link
