import Amqp.Proofs.Link.Addressing
import Amqp.Proofs.Session.FreeHandles
import Amqp.Proofs.Session.Handles
import Amqp.Proofs.Session.Handshake

/-!
# Who gets which handle

A link keeps its handle as long as the session keeps the link, and a new link gets the next handle.
`Entitles` says which handle the link of a name may have by the state before an event, and
`Allotted` that neither a link nor an attach has any other.  Whatever a session does upon an event
keeps to it, also when its carrier refuses a frame (`allotted_after`).
-/

namespace Amqp.Session

/-! ## Handles of links -/

/-- The handle of the link under a name. -/
def handleOf (s : Session) (name : String) : Option UInt32 :=
  (s.links.get? name).map (·.endpoint.handle)

/-- The handle that the link under a name has, or the next one if there is no such link. -/
def Entitles (s : Session) (name : String) (handle : UInt32) : Prop :=
  s.handleOf name = some handle ∨ s.handleOf name = none ∧ s.freeHandle = .ok handle

/-- Whether the links of a session all were in another one, with the same handles. -/
def Retains (s s' : Session) : Prop :=
  ∀ name handle, s'.handleOf name = some handle → s.handleOf name = some handle

section

variable {s s' : Session} {name : String} {l l' : Link}

theorem handleOf_eq_map_placeOf (s : Session) (name : String) :
    s.handleOf name = (s.placeOf name).map Link.Place.handle := by
  unfold handleOf placeOf
  rw [Option.map_map]
  rfl

theorem handleOf_eq_some (h : s.links.get? name = some l) :
    s.handleOf name = some l.place.handle := by
  unfold handleOf
  rw [h]
  rfl

theorem handleOf_eq_none (h : s.links.get? name = none) : s.handleOf name = none := by
  unfold handleOf
  rw [h]
  rfl

theorem handleOf_withLink (name : String) (l : Link) (s : Session) (n : String) :
    (s.withLink name l).handleOf n = if n = name then some l.place.handle else s.handleOf n := by
  unfold handleOf withLink
  rw [Table.get?_insert]
  split_ifs <;> rfl

theorem handleOf_register (l : Link) (s : Session) (name : String) :
    (s.register l).handleOf name =
      if name = l.place.name then some l.place.handle else s.handleOf name := by
  rw [handleOf_eq_map_placeOf, handleOf_eq_map_placeOf, placeOf_register]
  split_ifs <;> rfl

theorem retains_of_samePlaces (h : SamePlaces s.links s'.links) : Retains s s' := by
  intro name handle hs'
  have hplace : s'.placeOf name = s.placeOf name := h name
  rwa [handleOf_eq_map_placeOf, hplace, ← handleOf_eq_map_placeOf] at hs'

theorem retains_withLink (h : s.links.get? name = some l) (hplace : l'.place = l.place) :
    Retains s (s.withLink name l') :=
  retains_of_samePlaces (samePlaces_insert h hplace)

theorem retains_remove (name : String) : Retains s (s.remove name) := by
  intro n handle hs'
  rw [handleOf_eq_map_placeOf, placeOf_remove] at hs'
  split_ifs at hs'
  · cases hs'
  · rwa [handleOf_eq_map_placeOf]

theorem retains_dropLinks : Retains s s.dropLinks := by
  intro name handle hs'
  cases hs'

theorem retains_enter (state : State) : Retains s (s.enter state).1 :=
  retains_of_samePlaces (samePlaces_mapValues (Link.place_followSession state) s.links)

theorem retains_attachKnown {attach : Attach} (h : s.links.get? attach.name = some l) :
    Retains s (s.attachKnown attach l).1 := by
  intro n handle hs'
  rw [handleOf_eq_map_placeOf, placeOf_attachKnown] at hs'
  split_ifs at hs' with hname
  · rw [hname, handleOf_eq_some h]
    exact hs'
  · rwa [handleOf_eq_map_placeOf]

end

/-! ## Attaches -/

/-- The attaches among frames. -/
def attachesOf (frames : List (UInt16 × Performative)) : List Attach :=
  frames.filterMap fun f =>
    match f.2 with
    | .attach v => some v
    | _ => none

theorem attachesOf_append (xs ys : List (UInt16 × Performative)) :
    attachesOf (xs ++ ys) = attachesOf xs ++ attachesOf ys :=
  List.filterMap_append

theorem mem_attachesOf {frames : List (UInt16 × Performative)} {a : Attach}
    (h : a ∈ attachesOf frames) : ∃ channel, (channel, .attach a) ∈ frames := by
  obtain ⟨⟨channel, p⟩, hp, ha⟩ := List.mem_filterMap.1 h
  cases p with
  | attach v =>
    cases ha
    exact ⟨channel, hp⟩
  | _ => cases ha

/-- Frames for outputs are attaches only if the outputs are. -/
theorem attach_mem_of_frameOf {s : Session} {outputs : List Link.Output} {a : Attach}
    (h : .attach a ∈ outputs.map s.frameOf) : .attach a ∈ outputs := by
  obtain ⟨output, houtput, ha⟩ := List.mem_map.1 h
  cases output with
  | attach v =>
    cases ha
    exact houtput
  | _ => cases ha

/-- Outputs of links that are visited are attaches only on handles of these links. -/
theorem attach_mem_visit {react : Link → Link × List Link.Output}
    (hplace : ∀ l, (react l).1.place = l.place)
    (hreact : ∀ l, Link.AttachesOn l.place.handle (react l).2) {names : List String} {s : Session}
    {links : Table String Link} (hlinks : SamePlaces s.links links) {a : Attach}
    (ha : .attach a ∈ (visit react names links).2) : ∃ name, s.handleOf name = some a.handle := by
  induction names generalizing links with
  | nil => exact absurd ha List.not_mem_nil
  | cons name names ih =>
    rw [visit] at ha
    cases hl : links.get? name with
    | none =>
      rw [hl] at ha
      exact ih hlinks ha
    | some l =>
      rw [hl] at ha
      rcases List.mem_append.1 ha with ha | ha
      · refine ⟨name, ?_⟩
        have hplace := hlinks name
        rw [hl] at hplace
        change _ = s.placeOf name at hplace
        rw [handleOf_eq_map_placeOf, ← hplace, hreact l a ha]
        rfl
      · exact ih (fun n => (samePlaces_insert hl (hplace l) n).trans (hlinks n)) ha

/-! ## What actions keep to -/

/-- Whether links, and the attaches since some frames, only have handles that are granted to their
names. -/
structure Allotted {κ : Type} (granted : String → UInt32 → Prop)
    (frames : List (UInt16 × Performative)) (y : Session × Recorder κ) : Prop where
  handles : ∀ name handle, y.1.handleOf name = some handle → granted name handle
  attaches : ∃ sent, y.2.frames = frames ++ sent ∧
    ∀ a ∈ attachesOf sent, ∃ name, granted name a.handle

section

variable {κ α : Type} {granted : String → UInt32 → Prop} {frames : List (UInt16 × Performative)}
  {s s' : Session} {r : Recorder κ}

open Amqp.Action Acting

theorem keeps_current_bind {I : Session × Recorder κ → Prop}
    {f : Session → Acting (Recorder κ) α} (hf : ∀ s r, I (s, r) → Leaves I (f s (s, r))) :
    Keeps I (current >>= f) := fun y h => hf y.1 y.2 h

theorem leaves_update_bind {I : Session × Recorder κ → Prop} {change : Session → Session}
    {f : Unit → Acting (Recorder κ) α} (h : Leaves I (f () (change s, r))) :
    Leaves I ((update change >>= f) (s, r)) := h

namespace Allotted

theorem retain (h : Allotted granted frames (s, r)) (hs' : Retains s s') :
    Allotted granted frames (s', r) :=
  ⟨fun name handle hhandle => h.handles name handle (hs' name handle hhandle), h.attaches⟩

theorem withLink (h : Allotted granted frames (s, r)) {name : String} {l : Link}
    (hl : granted name l.place.handle) : Allotted granted frames (s.withLink name l, r) := by
  refine ⟨fun n handle hhandle => ?_, h.attaches⟩
  rw [handleOf_withLink] at hhandle
  split_ifs at hhandle with hn
  · cases hhandle
    rwa [hn]
  · exact h.handles n handle hhandle

theorem register (h : Allotted granted frames (s, r)) {l : Link}
    (hl : granted l.place.name l.place.handle) : Allotted granted frames (s.register l, r) := by
  refine ⟨fun n handle hhandle => ?_, h.attaches⟩
  rw [handleOf_register] at hhandle
  split_ifs at hhandle with hn
  · cases hhandle
    rwa [hn]
  · exact h.handles n handle hhandle

/-- More attaches keep to the grants if their handles are granted. -/
theorem append (h : Allotted granted frames (s, r)) (ps : List Performative) {carrier : κ}
    (hps : ∀ a, .attach a ∈ ps → ∃ name, granted name a.handle) :
    Allotted granted frames
      (s, { carrier, frames := r.frames ++ ps.map (s.channel, ·) }) := by
  obtain ⟨hhandles, sent, hframes, hsent⟩ := h
  refine ⟨hhandles, sent ++ ps.map (s.channel, ·), ?_, fun a ha => ?_⟩
  · rw [← List.append_assoc, ← hframes]
  · rw [attachesOf_append] at ha
    rcases List.mem_append.1 ha with ha | ha
    · exact hsent a ha
    · obtain ⟨channel, ha⟩ := mem_attachesOf ha
      obtain ⟨p, hp, heq⟩ := List.mem_map.1 ha
      cases heq
      exact hps a hp

/-- A link may attach. -/
theorem granted_of_attachesOn (h : Allotted granted frames (s, r)) {name : String} {l : Link}
    (hl : s.links.get? name = some l) {outputs : List Link.Output}
    (houtputs : Link.AttachesOn l.place.handle outputs) {a : Attach} (ha : .attach a ∈ outputs) :
    ∃ name, granted name a.handle :=
  ⟨name, h.handles name a.handle (by rw [handleOf_eq_some hl, houtputs a ha])⟩

theorem granted_of_enter (h : Allotted granted frames (s, r)) {state : State} {a : Attach}
    (ha : .attach a ∈ (s.enter state).2) : ∃ name, granted name a.handle := by
  obtain ⟨l, hl, ha⟩ := List.mem_flatMap.1 ha
  obtain ⟨⟨name, l'⟩, hentry, rfl⟩ := List.mem_map.1 hl
  exact h.granted_of_attachesOn (Table.get?_eq_some_iff.2 hentry)
    (l'.speaksOn_followSession state).attachesOn ha

theorem granted_of_visit (h : Allotted granted frames (s, r))
    {react : Link → Link × List Link.Output} (hplace : ∀ l, (react l).1.place = l.place)
    (hreact : ∀ l, Link.AttachesOn l.place.handle (react l).2) {names : List String} {a : Attach}
    (ha : .attach a ∈ (visit react names s.links).2) : ∃ name, granted name a.handle := by
  obtain ⟨name, hname⟩ := attach_mem_visit hplace hreact (fun _ => rfl) ha
  exact ⟨name, h.handles name a.handle hname⟩

end Allotted

theorem keeps_update {change : Session → Session} (h : ∀ s, Retains s (change s)) :
    Keeps (Allotted (κ := κ) granted frames) (update change) := fun _ hs => hs.retain (h _)

variable [FrameCarrier κ]

/-! ### Frames -/

/-- Frames that are no attaches keep to any grants. -/
theorem keeps_emit {p : Performative} (hp : isAttach p = false) :
    Keeps (Allotted (κ := κ) granted frames) (emit p) := by
  rintro ⟨s, r⟩ h
  rcases emit_cases p s r with ⟨halt, carrier, hemit⟩ | ⟨carrier, hemit⟩
  · rw [hemit]
    exact ⟨h.handles, h.attaches⟩
  · rw [hemit]
    refine h.append [p] fun a ha => ?_
    rw [← List.mem_singleton.1 ha] at hp
    cases hp

theorem leaves_sendOutputs {outputs : List Link.Output} (h : Allotted granted frames (s, r))
    (houtputs : ∀ a, .attach a ∈ outputs → ∃ name, granted name a.handle) :
    Leaves (Allotted granted frames) (sendOutputs outputs (s, r)) := by
  obtain ⟨carrier, qs, hqs, hafter⟩ := stateAfter_sendOutputs outputs s r
  rw [leaves_iff, hafter]
  exact h.append qs fun a ha => houtputs a (attach_mem_of_frameOf (hqs.subset ha))

theorem leaves_commit {change : Session × List Link.Output} (h : Allotted granted frames (s, r))
    (hchange : Retains s change.1)
    (houtputs : ∀ a, .attach a ∈ change.2 → ∃ name, granted name a.handle) :
    Leaves (Allotted granted frames) (commit change (s, r)) :=
  leaves_sendOutputs (h.retain hchange) houtputs

theorem leaves_commit_withLink {name : String} {l l' : Link} {outputs : List Link.Output}
    (h : Allotted granted frames (s, r)) (hl : s.links.get? name = some l)
    (hplace : l'.place = l.place) (houtputs : Link.AttachesOn l.place.handle outputs) :
    Leaves (Allotted granted frames) (commit (s.withLink name l', outputs) (s, r)) :=
  leaves_commit h (retains_withLink hl hplace) fun _ => h.granted_of_attachesOn hl houtputs

theorem keeps_transition (state : State) :
    Keeps (Allotted (κ := κ) granted frames) (transition state) :=
  keeps_current_bind fun _ _ h =>
    leaves_commit h (retains_enter state) fun _ => h.granted_of_enter

theorem keeps_sendFlow (flow : Option Flow) :
    Keeps (Allotted (κ := κ) granted frames) (sendFlow flow) :=
  keeps_current_bind fun _ _ h => keeps_emit (p := .flow _) rfl _ h

theorem keeps_sendBegin : Keeps (Allotted (κ := κ) granted frames) sendBegin :=
  keeps_current_bind fun _ _ h => keeps_emit (p := .begin _) rfl _ h

theorem keeps_abort (error : ErrorInfo) (f : Fault) :
    Keeps (Allotted (κ := κ) granted frames) (abort error f) :=
  Keeps.bind (keeps_emit rfl) fun _ => Keeps.bind (keeps_transition _) fun _ => keeps_raise f

/-! ### Calls of the owner -/

theorem keeps_begin (wait : Patience) :
    Keeps (Allotted (κ := κ) granted frames) (begin wait) := by
  refine keeps_current_bind fun s r h => ?_
  have hopening : Keeps (Allotted (κ := κ) granted frames)
      (sendBegin >>= fun _ => transition .beginSent) :=
    keeps_sendBegin.bind fun _ => keeps_transition _
  dsimp only
  split_ifs
  · exact h
  · exact h
  · exact h
  · exact hopening (s, r) h

theorem keeps_finish (error : Option ErrorInfo) :
    Keeps (Allotted (κ := κ) granted frames) (finish error) := by
  refine keeps_current_bind fun s r h => ?_
  have hclosing (state : State) : Keeps (Allotted (κ := κ) granted frames)
      (sendEnd error >>= fun _ => transition state) :=
    Keeps.bind (keeps_emit rfl) fun _ => keeps_transition state
  split_ifs
  · exact hclosing _ (s, r) h
  · exact hclosing _ (s, r) h
  · exact h

theorem keeps_attach (name : String) :
    Keeps (Allotted (κ := κ) granted frames) (attach name) := by
  refine keeps_current_bind fun s r h => leaves_ofExcept_bind h fun l hl => ?_
  split_ifs
  · exact leaves_commit_withLink h (links_of_link hl) (Link.place_attach l)
      l.speaksOn_attach.attachesOn
  · exact h.retain (retains_withLink (links_of_link hl) (Link.place_withEndpoint _ l))

theorem keeps_detach (name : String) (close : Bool) (error : Option ErrorInfo) :
    Keeps (Allotted (κ := κ) granted frames) (detach name close error) := by
  refine keeps_current_bind fun s r h => leaves_ofExcept_bind h fun l hl => ?_
  split_ifs
  · exact h.retain (retains_remove name)
  · exact leaves_commit_withLink h (links_of_link hl) (Link.place_detach close error l)
      (l.speaksOn_detach close error).attachesOn

theorem keeps_sendTransfers (ts : List Transfer) :
    Keeps (Allotted (κ := κ) granted frames) (sendTransfers ts) := by
  induction ts with
  | nil => exact keeps_pure ()
  | cons t ts ih =>
    exact Keeps.bind (keeps_emit rfl) fun _ =>
      Keeps.bind (keeps_update fun _ _ _ => id) fun _ => ih

theorem keeps_sendDelivery (t : Transfer) :
    Keeps (Allotted (κ := κ) granted frames) (sendDelivery t) := by
  refine keeps_get_bind fun ⟨s, r⟩ h => ?_
  dsimp only
  split_ifs
  · exact h
  · exact h
  refine leaves_ofExcept_bind h fun ts _ => ?_
  have hsending : Keeps (Allotted (κ := κ) granted frames)
      (sendTransfers (stamp s.nextOutgoingId ts) >>= fun _ =>
        pure (SendOutcome.sent s.nextOutgoingId)) :=
    (keeps_sendTransfers _).bind fun _ => keeps_pure _
  split_ifs
  · exact h
  · exact hsending (s, r) h

theorem keeps_send (now : Nat) (name : String) (payload : Bytes) (settled : Bool) :
    Keeps (Allotted (κ := κ) granted frames) (send now name payload settled) := by
  refine keeps_current_bind fun s r h => ?_
  split_ifs
  · exact h
  refine leaves_ofExcept_bind h fun v hv => leaves_ofExcept_bind h fun drafted hdraft => ?_
  obtain ⟨t | t, v'⟩ := drafted
  · exact h
  have hplace : (Link.sender v').place = (Link.sender v).place :=
    congrArg Link.Endpoint.place (Link.Sender.endpoint_draft hdraft)
  have hgranted : granted name (Link.sender v').place.handle := by
    rw [hplace]
    exact h.handles name _ (handleOf_eq_some (links_of_sender hv))
  refine leaves_update_bind (leaves_bind (keeps_sendDelivery t _ (h.withLink hgranted))
    (fun outcome y _ hy => ?_) fun _ => id)
  cases outcome with
  | sent id =>
    have hbook : (Link.sender (v'.book id t now)).place = (Link.sender v').place :=
      Link.Sender.place_book id t now v'
    rw [← hbook] at hgranted
    exact hy.withLink hgranted
  | _ => exact hy

theorem keeps_grantCredit (name : String) (credit : UInt32) :
    Keeps (Allotted (κ := κ) granted frames) (grantCredit name credit) := by
  refine keeps_current_bind fun s r h => leaves_ofExcept_bind h fun v hv =>
    leaves_ofExcept_bind h fun change hchange => ?_
  have hplace : (Link.receiver change.1).place = (Link.receiver v).place :=
    Link.Receiver.place_grant hchange
  exact leaves_commit_withLink h (links_of_receiver hv) hplace
    (Link.Receiver.speaksOn_grant hchange).attachesOn

theorem keeps_settle (name : String) (deliveryId : UInt32) (state : DeliveryState) :
    Keeps (Allotted (κ := κ) granted frames) (settle name deliveryId state) := by
  refine keeps_current_bind fun s r h => leaves_ofExcept_bind h fun v hv =>
    leaves_ofExcept_bind h fun change hchange => ?_
  have hplace : (Link.receiver change.1).place = (Link.receiver v).place :=
    congrArg Link.Endpoint.place (Link.Receiver.endpoint_settle hchange)
  exact leaves_commit_withLink h (links_of_receiver hv) hplace
    (Link.Receiver.speaksOn_settle _ hchange).attachesOn

/-! ### Frames of the peer -/

theorem keeps_onBegin (remoteChannel : UInt16) (v : Begin) :
    Keeps (Allotted (κ := κ) granted frames) (onBegin remoteChannel v) := by
  have hmeet : Keeps (Allotted (κ := κ) granted frames)
      (update fun s => { s with remoteChannel := some remoteChannel }) :=
    keeps_update fun _ _ _ => id
  refine Keeps.bind (keeps_update fun _ _ _ => id) fun _ => keeps_current_bind fun s r h => ?_
  cases s.state with
  | beginSent => exact (hmeet.bind fun _ => keeps_transition _) (s, r) h
  | unmapped =>
    exact (hmeet.bind fun _ => (keeps_transition _).bind fun _ =>
      keeps_sendBegin.bind fun _ => keeps_transition _) (s, r) h
  | _ => exact h

theorem keeps_onEnd : Keeps (Allotted (κ := κ) granted frames) onEnd := by
  have hrelease : Keeps (Allotted (κ := κ) granted frames)
      (transition .unmapped >>= fun _ => update dropLinks) :=
    (keeps_transition _).bind fun _ => keeps_update fun _ => retains_dropLinks
  refine keeps_current_bind fun s r h => ?_
  dsimp only
  split_ifs
  · exact ((keeps_transition _).bind fun _ => Keeps.bind (keeps_emit rfl) fun _ => hrelease)
      (s, r) h
  · exact hrelease (s, r) h

theorem leaves_spreadFlow (flow : Flow) (h : Allotted granted frames (s, r)) :
    Leaves (Allotted granted frames) (commit (s.spreadFlow flow) (s, r)) := by
  unfold spreadFlow
  split_ifs
  · have hplace (l : Link) :
        (if l.endpoint.isClosed then (l, []) else l.onFlow flow).1.place = l.place := by
      split_ifs
      · rfl
      · exact Link.place_onFlow flow l
    refine leaves_commit h (retains_of_samePlaces (samePlaces_visit hplace _ _)) fun a =>
      h.granted_of_visit hplace fun l => ?_
    split_ifs
    · exact (Link.speaksOn_nil _).attachesOn
    · exact (l.speaksOn_onFlow flow).attachesOn
  · exact leaves_commit h (fun _ _ => id) fun a ha => absurd ha List.not_mem_nil

theorem keeps_onFlow (flow : Flow) :
    Keeps (Allotted (κ := κ) granted frames) (onFlow flow) := by
  refine Keeps.bind (keeps_update fun _ _ _ => id) fun _ => keeps_current_bind fun s r h => ?_
  cases flow.handle with
  | none => exact leaves_spreadFlow flow h
  | some handle =>
    dsimp only
    cases s.inputHandles.get? handle with
    | none => exact keeps_abort _ _ (s, r) h
    | some name =>
      refine leaves_ofExcept_bind h fun l hl => ?_
      exact leaves_commit_withLink h (links_of_link hl) (Link.place_onFlow flow l)
        (l.speaksOn_onFlow flow).attachesOn

theorem keeps_replenish : Keeps (Allotted (κ := κ) granted frames) replenish := by
  refine keeps_current_bind fun s r h => ?_
  split_ifs
  · exact leaves_update_bind (keeps_sendFlow none _ (h.retain fun _ _ => id))
  · exact h

theorem keeps_onTransfer (t : Transfer) :
    Keeps (Allotted (κ := κ) granted frames) (onTransfer t) := by
  refine Keeps.bind (keeps_update fun _ _ _ => id) fun _ => keeps_current_bind fun s r h => ?_
  cases s.inputHandles.get? t.handle with
  | none => exact keeps_abort _ _ (s, r) h
  | some name =>
    refine leaves_ofExcept_bind h fun l hl => leaves_ofExcept_bind h fun change hchange => ?_
    have hcommit := leaves_commit_withLink h (links_of_link hl) (Link.place_onTransfer hchange)
      (l.speaksOn_onTransfer hchange).attachesOn
    exact leaves_bind hcommit (fun _ y _ hy => keeps_replenish y hy) fun _ => id

theorem keeps_onDisposition (d : Disposition) :
    Keeps (Allotted (κ := κ) granted frames) (onDisposition d) := by
  refine keeps_current_bind fun s r h => leaves_commit h ?_ fun a => ?_
  · exact retains_of_samePlaces (samePlaces_visit (Link.place_onDisposition d) _ _)
  · exact h.granted_of_visit (Link.place_onDisposition d) fun l =>
      (l.speaksOn_onDisposition d).attachesOn

theorem keeps_onDetach (d : Detach) :
    Keeps (Allotted (κ := κ) granted frames) (onDetach d) := by
  refine keeps_current_bind fun s r h => ?_
  cases s.inputHandles.get? d.handle with
  | none => exact keeps_abort _ _ (s, r) h
  | some name =>
    refine leaves_ofExcept_bind h fun l hl => ?_
    have hcommit := leaves_commit_withLink h (links_of_link hl) (Link.place_onDetach d l)
      (l.speaksOn_onDetach d).attachesOn
    refine leaves_bind hcommit (fun _ y _ hy => ?_) fun _ => id
    split_ifs
    · exact hy.retain (retains_remove name)
    · exact hy

/-- The peer's attach may need the next handle. -/
theorem leaves_onAttach (attach : Attach) (h : Allotted granted frames (s, r))
    (hnew : ∀ handle, s.links.get? attach.name = none → s.freeHandle = .ok handle →
      granted attach.name handle) :
    Leaves (Allotted granted frames) (onAttach attach (s, r)) := by
  have hknown {l : Link} (hl : s.links.get? attach.name = some l) :
      Leaves (Allotted granted frames) (commit (s.attachKnown attach l) (s, r)) :=
    leaves_commit h (retains_attachKnown hl) fun _ =>
      h.granted_of_attachesOn hl (l.speaksOn_onAttach attach).attachesOn
  have hadded (hl : s.links.get? attach.name = none) :
      Leaves (Allotted granted frames) ((ofExcept (s.attachNew attach) >>= commit) (s, r)) := by
    refine leaves_ofExcept_bind h fun change hchange => ?_
    obtain ⟨l, handle, hhandle, hplace, rfl⟩ := registers_attachNew hchange
    have hgranted := hnew handle hl hhandle
    have hregister : Allotted granted frames (s.register (l.onAttach attach).1, r) := by
      refine h.register ?_
      rwa [Link.place_onAttach, hplace]
    refine leaves_sendOutputs hregister fun a ha => ⟨attach.name, ?_⟩
    rwa [(l.speaksOn_onAttach attach).attachesOn a ha, hplace]
  rcases onAttach_cases (κ := Recorder κ) attach s with
    ⟨holder, heq⟩ | ⟨-, ⟨l, hl, heq⟩ | ⟨hl, heq⟩⟩ <;> rw [heq]
  · exact keeps_abort _ _ (s, r) h
  · exact hknown hl
  · exact hadded hl

/-! ## Events -/

theorem retains_receive (name : String) (s : Session) :
    Retains s ((s.receive name).toOption.elim s Prod.snd) := by
  unfold receive
  cases hv : s.receiver name with
  | error f => exact fun _ _ => id
  | ok v =>
    have hplace : (Link.receiver v.pop.2).place = (Link.receiver v).place := rfl
    exact retains_withLink (links_of_receiver hv) hplace

theorem retains_collectOutcome (name : String) (deliveryId : UInt32) (s : Session) :
    Retains s ((s.collectOutcome name deliveryId).toOption.elim s Prod.snd) := by
  unfold collectOutcome
  cases hv : s.sender name with
  | error f => exact fun _ _ => id
  | ok v =>
    have hplace : (Link.sender (v.collect deliveryId).2).place = (Link.sender v).place := rfl
    exact retains_withLink (links_of_sender hv) hplace

theorem retains_followConnection (connection : Connection.State) (s : Session) :
    Retains s (s.followConnection connection) := by
  unfold followConnection
  dsimp only
  split_ifs
  · exact retains_enter .discarding
  · exact fun _ _ => id

/-- Upon an event links keep their handles, a new link gets the next handle, and attaches go out on
the handles of links only. -/
theorem allotted_after (x : Session × Recorder κ) (ev : Event κ)
    (hfresh : ev.addedName?.bind x.1.links.get? = none) :
    Allotted (Entitles x.1) x.2.frames (after x ev) := by
  obtain ⟨s, r⟩ := x
  have h : Allotted (Entitles s) r.frames (s, r) :=
    ⟨fun _ _ => Or.inl, [], (List.append_nil _).symm, fun _ ha => absurd ha List.not_mem_nil⟩
  -- A link is added under a name that no link has.
  have hadd {l : Link} {name : String} {handle : UInt32} (hhandle : s.freeHandle = .ok handle)
      (hl : l.place = ⟨name, handle, none⟩) (hname : s.links.get? name = none) :
      Allotted (Entitles s) r.frames (s.register l, r) := by
    refine h.register (Or.inr ?_)
    rw [hl]
    exact ⟨handleOf_eq_none hname, hhandle⟩
  have hkeeps {x : Acting (Recorder κ) Unit} (hx : Keeps (Allotted (Entitles s) r.frames) x) :
      Allotted (Entitles s) r.frames (stateAfter (x (s, r))) := leaves_iff.1 (hx (s, r) h)
  cases ev with
  | begin wait => exact hkeeps (keeps_begin wait)
  | finish error => exact hkeeps (keeps_finish error)
  | addSender unique target settings =>
    show Allotted _ _ (stateAfter (adopt (addSender unique target settings) (s, r)))
    rw [adopt_eq]
    cases hresult : s.addSender unique target settings with
    | error f => exact h
    | ok result =>
      obtain ⟨l, handle, hhandle, hl, hregister⟩ := registers_addSender hresult
      have hadded := hadd hhandle hl hfresh
      rwa [← hregister] at hadded
  | addReceiver unique source settings =>
    show Allotted _ _ (stateAfter (adopt (addReceiver unique source settings) (s, r)))
    rw [adopt_eq]
    cases hresult : s.addReceiver unique source settings with
    | error f => exact h
    | ok result =>
      obtain ⟨l, handle, hhandle, hl, hregister⟩ := registers_addReceiver hresult
      have hadded := hadd hhandle hl hfresh
      rwa [← hregister] at hadded
  | attach name => exact hkeeps (keeps_attach name)
  | detach name close error => exact hkeeps (keeps_detach name close error)
  | send now name payload settled =>
    exact hkeeps ((keeps_send now name payload settled).bind fun _ => keeps_pure ())
  | sendDelivery transfer =>
    exact hkeeps ((keeps_sendDelivery transfer).bind fun _ => keeps_pure ())
  | sendFlow flow => exact hkeeps (keeps_sendFlow flow)
  | grantCredit name credit => exact hkeeps (keeps_grantCredit name credit)
  | settle name deliveryId state => exact hkeeps (keeps_settle name deliveryId state)
  | receive name =>
    show Allotted _ _ (stateAfter (adopt (receive name) (s, r)))
    rw [adopt_eq]
    exact h.retain (retains_receive name s)
  | collectOutcome name deliveryId =>
    show Allotted _ _ (stateAfter (adopt (collectOutcome name deliveryId) (s, r)))
    rw [adopt_eq]
    exact h.retain (retains_collectOutcome name deliveryId s)
  | evaluate now =>
    exact h.retain (retains_of_samePlaces (samePlaces_mapValues (Link.place_evaluate now) s.links))
  | followConnection connection => exact h.retain (retains_followConnection connection s)
  | changeCarrier change => exact ⟨h.handles, h.attaches⟩
  | dispatch remoteChannel p =>
    cases p with
    | begin v => exact hkeeps (keeps_onBegin remoteChannel v)
    | endFrame v => exact hkeeps keeps_onEnd
    | attach v =>
      exact leaves_iff.1 (leaves_onAttach v h fun handle hl hhandle =>
        Or.inr ⟨handleOf_eq_none hl, hhandle⟩)
    | flow v => exact hkeeps (keeps_onFlow v)
    | transfer v => exact hkeeps (keeps_onTransfer v)
    | disposition v => exact hkeeps (keeps_onDisposition v)
    | detach v => exact hkeeps (keeps_onDetach v)
    | openFrame v | close v => exact h

end

end Amqp.Session
