import Amqp.Proofs.Link.Place

/-!
# The handles in the outputs of a link

A link speaks of itself only: its attaches, flows and detaches all have its own handle.  `SpeaksOn`
says this of the outputs of one event.
-/

namespace Amqp.Link

/-- Whether an output has a given handle, if it has one at all. -/
def Output.IsOn (handle : UInt32) : Output → Prop
  | .attach v => v.handle = handle
  | .flow v => v.handle = some handle
  | .disposition _ => True
  | .detach v => v.handle = handle

/-- Whether all outputs are on one handle. -/
def SpeaksOn (handle : UInt32) (outputs : List Output) : Prop := ∀ o ∈ outputs, o.IsOn handle

/-- Whether all attaches among outputs are on one handle. -/
def AttachesOn (handle : UInt32) (outputs : List Output) : Prop :=
  ∀ a, .attach a ∈ outputs → a.handle = handle

theorem SpeaksOn.attachesOn {handle : UInt32} {outputs : List Output}
    (h : SpeaksOn handle outputs) : AttachesOn handle outputs := fun _ ha => h _ ha

theorem speaksOn_nil (handle : UInt32) : SpeaksOn handle [] :=
  fun _ ho => absurd ho List.not_mem_nil

theorem SpeaksOn.append {handle : UInt32} {outputs more : List Output}
    (h : SpeaksOn handle outputs) (hmore : SpeaksOn handle more) :
    SpeaksOn handle (outputs ++ more) :=
  fun o ho => (List.mem_append.1 ho).elim (h o) (hmore o)

theorem speaksOn_singleton {handle : UInt32} {output : Output} (h : output.IsOn handle) :
    SpeaksOn handle [output] := by
  intro o ho
  rwa [List.mem_singleton.1 ho]

/-! ## Endpoints -/

namespace Endpoint

variable (e : Endpoint)

theorem speaksOn_followSession (state : Session.State) :
    SpeaksOn e.handle (e.followSession state).2 := by
  cases state with
  | mapped =>
    unfold followSession
    dsimp only
    split_ifs
    · exact speaksOn_singleton rfl
    · exact speaksOn_nil _
  | _ => exact speaksOn_nil _

theorem speaksOn_onAttach (attach : Attach) : SpeaksOn e.handle (e.onAttach attach).2.1 := by
  unfold onAttach
  dsimp only
  split
  · exact speaksOn_singleton rfl
  · exact speaksOn_nil _
  · exact speaksOn_nil _

theorem speaksOn_detach (close : Bool) (error : Option ErrorInfo) :
    SpeaksOn e.handle (e.detach close error).2 := by
  unfold detach
  split
  · exact speaksOn_nil _
  · exact speaksOn_nil _
  · exact speaksOn_singleton rfl

theorem speaksOn_onDetach (detach : Detach) : SpeaksOn e.handle (e.onDetach detach).2 := by
  unfold onDetach
  dsimp only
  split
  · exact speaksOn_nil _
  · exact speaksOn_nil _
  · exact speaksOn_nil _
  · exact speaksOn_singleton rfl

end Endpoint

/-! ## Sending and receiving ends -/

theorem Sender.speaksOn_onFlow (flow : Flow) (s : Sender) :
    SpeaksOn s.endpoint.handle (s.onFlow flow).2 := by
  unfold onFlow
  cases flow.linkCredit
  all_goals
    dsimp only
    split_ifs
    · exact speaksOn_singleton rfl
    · exact speaksOn_singleton rfl
    · exact speaksOn_nil _

theorem Sender.speaksOn_onDisposition (handle : UInt32) (d : Disposition) (s : Sender) :
    SpeaksOn handle (s.onDisposition d).2 := by
  unfold onDisposition
  dsimp only
  split_ifs
  · exact speaksOn_nil _
  · exact speaksOn_singleton trivial
  · exact speaksOn_nil _

namespace Receiver

theorem speaksOn_grant {credit : UInt32} {r r' : Receiver} {outputs : List Output}
    (h : r.grant credit = .ok (r', outputs)) : SpeaksOn r.endpoint.handle outputs := by
  unfold grant at h
  split_ifs at h
  cases h
  exact speaksOn_singleton rfl

theorem speaksOn_settle (handle : UInt32) {deliveryId : UInt32} {state : DeliveryState}
    {r r' : Receiver} {outputs : List Output} (h : r.settle deliveryId state = .ok (r', outputs)) :
    SpeaksOn handle outputs := by
  unfold settle at h
  split_ifs at h
  cases h
  exact speaksOn_singleton trivial

theorem speaksOn_refill (r : Receiver) : SpeaksOn r.endpoint.handle r.refill.2 := by
  unfold refill
  split_ifs
  · exact speaksOn_singleton rfl
  · exact speaksOn_nil _

theorem speaksOn_onAttach (attach : Attach) (r : Receiver) :
    SpeaksOn r.endpoint.handle (r.onAttach attach).2 := by
  unfold onAttach
  dsimp only
  generalize he : (if attach.role = .sender then
      { r.endpoint with deliveryCount := attach.initialDeliveryCount.getD 0 }
    else r.endpoint) = e
  have hhandle : e.handle = r.endpoint.handle := by
    rw [← he]
    split_ifs <;> rfl
  have hplace := congrArg Place.handle (e.place_onAttach attach)
  have hattach := e.speaksOn_onAttach attach
  rw [hhandle] at hattach
  split
  · rename_i heq
    rw [heq] at hattach
    exact hattach
  · rename_i e' outputs heq
    rw [heq] at hattach hplace
    rw [← hhandle] at hattach ⊢
    refine hattach.append ?_
    rw [← show e'.handle = e.handle from hplace]
    exact speaksOn_refill _

theorem speaksOn_onFlow (flow : Flow) (r : Receiver) :
    SpeaksOn r.endpoint.handle (r.onFlow flow).2 := by
  have hhandle := congrArg Place.handle (r.place_onFlow flow)
  unfold onFlow at hhandle ⊢
  dsimp only at hhandle ⊢
  split_ifs
  · exact speaksOn_singleton (congrArg some hhandle)
  · exact speaksOn_nil _

theorem speaksOn_queue (handle : UInt32) (m : Message) (r : Receiver) :
    SpeaksOn handle (r.queue m).2 := by
  unfold queue
  split_ifs
  · exact speaksOn_nil _
  · exact speaksOn_singleton trivial
  · exact speaksOn_nil _

theorem speaksOn_of_takes {t : Transfer} {r : Receiver}
    {result : Except Fault (Receiver × List Output)} (h : Takes t r result)
    {change : Receiver × List Output} (hchange : result = .ok change) :
    SpeaksOn r.endpoint.handle change.2 := by
  cases h with
  | dropped =>
    cases hchange
    exact speaksOn_nil _
  | refused => cases hchange
  | aborted =>
    cases hchange
    rw [← r.handle_opened]
    exact speaksOn_refill _
  | exceeding =>
    cases hchange
    rw [← r.handle_opened]
    exact Endpoint.speaksOn_detach _ _ _
  | @more m =>
    cases hchange
    rw [← r.handle_opened]
    exact speaksOn_refill { r.opened with inProgress := some (m.extend t) }
  | @last m =>
    cases hchange
    have hrefill := speaksOn_refill (r.opened.queue (m.extend t)).1
    rw [endpoint_queue, r.handle_opened] at hrefill
    exact (speaksOn_queue _ _ _).append hrefill

end Receiver

/-! ## Links -/

variable (l : Link)

theorem speaksOn_followSession (state : Session.State) :
    SpeaksOn l.place.handle (l.followSession state).2 := by
  cases l with
  | sender v => exact v.endpoint.speaksOn_followSession state
  | receiver v => exact v.endpoint.speaksOn_followSession state

theorem speaksOn_attach : SpeaksOn l.place.handle l.attach.2 :=
  Endpoint.speaksOn_followSession { l.endpoint with isClosed := false } .mapped

theorem speaksOn_detach (close : Bool) (error : Option ErrorInfo) :
    SpeaksOn l.place.handle (l.detach close error).2 :=
  l.endpoint.speaksOn_detach close error

theorem speaksOn_onAttach (attach : Attach) : SpeaksOn l.place.handle (l.onAttach attach).2 := by
  cases l with
  | sender v => exact v.endpoint.speaksOn_onAttach attach
  | receiver v => exact v.speaksOn_onAttach attach

theorem speaksOn_onFlow (flow : Flow) : SpeaksOn l.place.handle (l.onFlow flow).2 := by
  cases l with
  | sender v => exact v.speaksOn_onFlow flow
  | receiver v => exact v.speaksOn_onFlow flow

theorem speaksOn_onTransfer {t : Transfer} {l' : Link} {outputs : List Output}
    (h : l.onTransfer t = .ok (l', outputs)) : SpeaksOn l.place.handle outputs := by
  cases l with
  | sender v => cases h
  | receiver v =>
    cases hv : v.onTransfer t with
    | error f => simp [onTransfer, hv, bind, Except.bind] at h
    | ok result =>
      obtain ⟨v', outputs'⟩ := result
      simp only [onTransfer, hv, bind, Except.bind] at h
      cases h
      exact Receiver.speaksOn_of_takes (Receiver.takes_onTransfer t v) hv

theorem speaksOn_onDisposition (d : Disposition) :
    SpeaksOn l.place.handle (l.onDisposition d).2 := by
  cases l with
  | sender v => exact Sender.speaksOn_onDisposition _ d v
  | receiver v => exact speaksOn_nil _

theorem speaksOn_onDetach (detach : Detach) : SpeaksOn l.place.handle (l.onDetach detach).2 := by
  cases l with
  | sender v => exact v.endpoint.speaksOn_onDetach detach
  | receiver v => exact v.endpoint.speaksOn_onDetach detach

end Amqp.Link
