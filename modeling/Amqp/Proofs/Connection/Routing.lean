import Amqp.Proofs.Connection.Courses

/-!
# Ways to sessions

The peer reaches a session by a way that leads there from one of its channels.  Every way leads to a
session.  Ways are in order (`Routed`) if moreover no two of them lead to one session, and every
mapped session is reached from the channel that it takes for the peer's.  A Begin opens its way
before the session has a say, so it may encroach on what is there: on a session that is reached
already, or on a mapped session that is reached from the channel of the Begin (`encroaches`).  In
every course ways stay in order as long as no Begin encroaches, and no Begin that encroaches leaves
them in order (`routed_of_run`).
-/

namespace Amqp

namespace Session

variable {κ : Type} [FrameCarrier κ]

/-- A session that has taken the peer's End is unmapped. -/
theorem state_of_onEnd {y y' : Session × κ} (h : onEnd y = .ok () y') : y'.1.state = .unmapped := by
  have hT := Terms.hold_ofSeat (κ := κ) fun seat => seat.state = .unmapped
  have hrest (y : Session × κ)
      (h : (transition .unmapped >>= fun _ => Acting.update dropLinks) y = .ok () y') :
      y'.1.state = .unmapped := by
    have hsent : (Terms.ofSeat κ fun seat => seat.state = .unmapped).Governs
        (sendOutputs (y.1.enter .unmapped).2 >>= fun _ => Acting.update dropLinks)
        (y.1.enter .unmapped).1 :=
      (Terms.governs_sendOutputs hT _).bind fun _ _ => Terms.governs_update rfl
    have hmeets := hsent y.2 rfl
    change (Terms.ofSeat κ fun seat => seat.state = .unmapped).Meets
      ((transition .unmapped >>= fun _ => Acting.update dropLinks) y) at hmeets
    rw [h] at hmeets
    exact hmeets
  unfold onEnd at h
  obtain ⟨s, y₁, hcurrent, h⟩ := Action.bind_eq_ok h
  split at h
  · obtain ⟨_, y₂, _, h⟩ := Action.bind_eq_ok h
    obtain ⟨_, y₃, _, h⟩ := Action.bind_eq_ok h
    exact hrest y₃ h
  · exact hrest y₁ h

end Session

namespace Connection

variable {c c' : Connection} {channel known : UInt16} {v : Begin}

/-! ## Ways in order -/

/-- Whether every way leads to a session. -/
def Leads (c : Connection) : Prop :=
  ∀ way known, c.incomingChannels.get? way = some known → ∃ s, c.sessions.get? known = some s

/-- Whether no two ways lead to the same session. -/
def IsApart (c : Connection) : Prop :=
  ∀ way way' known, c.incomingChannels.get? way = some known →
    c.incomingChannels.get? way' = some known → way = way'

/-- Whether every mapped session is reached from the channel that it takes for the peer's. -/
def Reaches (c : Connection) : Prop :=
  ∀ known s, c.sessions.get? known = some s → s.state = .mapped →
    ∃ way, s.remoteChannel = some way ∧ c.incomingChannels.get? way = some known

/-- Ways in order. -/
structure Routed (c : Connection) : Prop where
  seated : c.Seated
  leads : c.Leads
  isApart : c.IsApart
  reaches : c.Reaches

theorem get?_release_sessions (channel other : UInt16) (c : Connection) :
    (c.release channel).sessions.get? other =
      if other = channel then none else c.sessions.get? other := Table.get?_erase _ _ _

theorem get?_release_incomingChannels {way other : UInt16} (channel : UInt16) :
    (c.release channel).incomingChannels.get? way = some other ↔
      c.incomingChannels.get? way = some other ∧ other ≠ channel := by
  have hfilter : (c.release channel).incomingChannels.get? way =
      (c.incomingChannels.get? way).filter fun ours => ours ≠ channel := Table.get?_filter _ _ _
  rw [hfilter, Option.filter_eq_some_iff, decide_eq_true_iff]

theorem Leads.insert (hc : c.Leads) {sessions : Table UInt16 Session} {channel : UInt16}
    {s : Session} (h : sessions = c.sessions.insert channel s) :
    Leads { c with sessions } := by
  intro way known hway
  change ∃ s, sessions.get? known = some s
  rw [h, Table.get?_insert]
  split
  · exact ⟨s, rfl⟩
  · exact hc way known hway

theorem steady_leads : Steady Leads where
  congr hsessions hchannels hc := by
    unfold Leads
    rw [hsessions, hchannels]
    exact hc
  settle _ _ hc := hc.insert rfl
  map {c f} _ hc := by
    intro way known hway
    obtain ⟨s, hs⟩ := hc way known hway
    exact ⟨f s, (Table.get?_mapValues _ _ _).trans (congrArg (Option.map f) hs)⟩
  add _ _ _ hc := hc.insert rfl
  release {c} channel hc := by
    intro way known hway
    obtain ⟨hway, hne⟩ := (get?_release_incomingChannels channel).1 hway
    obtain ⟨s, hs⟩ := hc way known hway
    exact ⟨s, by rw [get?_release_sessions, if_neg hne, hs]⟩

theorem steady_isApart : Steady IsApart where
  congr _ hchannels hc := by
    unfold IsApart
    rw [hchannels]
    exact hc
  settle _ _ hc := hc
  map _ hc := hc
  add _ _ _ hc := hc
  release channel hc := fun way way' known hway hway' =>
    hc way way' known ((get?_release_incomingChannels channel).1 hway).1
      ((get?_release_incomingChannels channel).1 hway').1

theorem steady_reaches : Steady Reaches where
  congr hsessions hchannels hc := by
    unfold Reaches
    rw [hsessions, hchannels]
    exact hc
  settle {c k s s'} hs hsettles hc := by
    intro known t ht hmapped
    change (c.sessions.insert k s').get? known = some t at ht
    rw [Table.get?_insert] at ht
    split_ifs at ht with hk
    · cases ht
      subst hk
      rw [hsettles.remoteChannel_eq]
      exact hc known s hs (hsettles.mapped hmapped)
    · exact hc known t ht hmapped
  map {c f} hf hc := by
    intro known t ht hmapped
    change (c.sessions.mapValues f).get? known = some t at ht
    rw [Table.get?_mapValues] at ht
    obtain ⟨s, hs, rfl⟩ := Option.map_eq_some_iff.1 ht
    rw [(hf s).remoteChannel_eq]
    exact hc known s hs ((hf s).mapped hmapped)
  add {c k s} _ _ hstate hc := by
    intro known t ht hmapped
    change (c.sessions.insert k s).get? known = some t at ht
    rw [Table.get?_insert] at ht
    split_ifs at ht
    · cases ht
      cases hstate.symm.trans hmapped
    · exact hc known t ht hmapped
  release {c} channel hc := by
    intro known s hs hmapped
    rw [get?_release_sessions] at hs
    split_ifs at hs with hne
    obtain ⟨way, hremote, hway⟩ := hc known s hs hmapped
    exact ⟨way, hremote, (get?_release_incomingChannels channel).2 ⟨hway, hne⟩⟩

theorem steady_routed : Steady Routed where
  congr hsessions hchannels hc :=
    ⟨steady_seated.congr hsessions hchannels hc.seated,
      steady_leads.congr hsessions hchannels hc.leads,
      steady_isApart.congr hsessions hchannels hc.isApart,
      steady_reaches.congr hsessions hchannels hc.reaches⟩
  settle hs hsettles hc :=
    ⟨steady_seated.settle hs hsettles hc.seated, steady_leads.settle hs hsettles hc.leads,
      steady_isApart.settle hs hsettles hc.isApart, steady_reaches.settle hs hsettles hc.reaches⟩
  map hf hc :=
    ⟨steady_seated.map hf hc.seated, steady_leads.map hf hc.leads,
      steady_isApart.map hf hc.isApart, steady_reaches.map hf hc.reaches⟩
  add hfree hs hstate hc :=
    ⟨steady_seated.add hfree hs hstate hc.seated, steady_leads.add hfree hs hstate hc.leads,
      steady_isApart.add hfree hs hstate hc.isApart, steady_reaches.add hfree hs hstate hc.reaches⟩
  release channel hc :=
    ⟨steady_seated.release channel hc.seated, steady_leads.release channel hc.leads,
      steady_isApart.release channel hc.isApart, steady_reaches.release channel hc.reaches⟩

/-! ## Ways that a Begin opens -/

/-- A connection with a way to a session, as a Begin leaves it. -/
def withWay (channel known : UInt16) (s : Session) (c : Connection) : Connection :=
  { c with
    incomingChannels := c.incomingChannels.insert channel known
    sessions := c.sessions.insert known s }

theorem Leads.withWay (hc : c.Leads) (channel known : UInt16) (s : Session) :
    (c.withWay channel known s).Leads := by
  intro way other hway
  change (c.incomingChannels.insert channel known).get? way = some other at hway
  change ∃ t, (c.sessions.insert known s).get? other = some t
  rw [Table.get?_insert] at hway ⊢
  split_ifs with hother
  · exact ⟨s, rfl⟩
  · split_ifs at hway
    · cases hway
      exact absurd rfl hother
    · exact hc way other hway

/-- Whatever the peer begins, every way leads to a session. -/
theorem stable_leads : Stable Leads :=
  steady_leads.stable fun channel _ _ hc =>
    steady_leads.onBegin hc (fun known _ s _ _ _ => hc.withWay channel known s)
      fun fresh s _ _ _ _ => hc.withWay channel fresh s

/-- The channel of the session to which a frame opens a way, if it is a Begin. -/
def opened? (p : Performative) (c : Connection) : Option UInt16 :=
  match p with
  | .begin v =>
    match v.remoteChannel with
    | some known => if c.sessions.contains known then some known else none
    | none => c.freeChannel.toOption
  | _ => none

/-- Whether a frame opens a way to a session that is reached from another channel, or takes the way
to a mapped session. -/
def encroaches (channel : UInt16) (p : Performative) (c : Connection) : Bool :=
  (c.opened? p).any fun known =>
    (c.incomingChannels.entries.any fun way => way.1 ≠ channel && way.2 = known) ||
      (c.incomingChannels.get? channel).any fun other =>
        other ≠ known && (c.sessions.get? other).any fun s => s.state = .mapped

theorem opened?_of_known {s : Session} (hremote : v.remoteChannel = some known)
    (hs : c.sessions.get? known = some s) : c.opened? (.begin v) = some known := by
  unfold opened?
  simp only [hremote, Table.contains_of_get? hs, if_true]

theorem opened?_of_fresh {fresh : UInt16} (hremote : v.remoteChannel = none)
    (hfree : c.freeChannel = .ok fresh) : c.opened? (.begin v) = some fresh := by
  unfold opened?
  simp only [hremote, hfree]
  rfl

theorem encroaches_iff {p : Performative} (h : c.opened? p = some known) :
    c.encroaches channel p = true ↔
      (∃ way, way ≠ channel ∧ c.incomingChannels.get? way = some known) ∨
        ∃ other s, c.incomingChannels.get? channel = some other ∧ other ≠ known ∧
          c.sessions.get? other = some s ∧ s.state = .mapped := by
  unfold encroaches
  rw [h, Option.any_some, Bool.or_eq_true, List.any_eq_true]
  refine or_congr ⟨?_, ?_⟩ ?_
  · rintro ⟨⟨way, other⟩, hmem, hway⟩
    simp only [Bool.and_eq_true, decide_eq_true_iff] at hway
    exact ⟨way, hway.1, Table.get?_eq_some_iff.2 (hway.2 ▸ hmem)⟩
  · rintro ⟨way, hne, hway⟩
    exact ⟨(way, known), Table.get?_eq_some_iff.1 hway, by simpa using hne⟩
  · simp [Option.any_eq_true]

/-- Ways stay in order when one is opened that does not encroach. -/
theorem Routed.withWay {p : Performative} (hc : c.Routed) (hopened : c.opened? p = some known)
    (hspares : c.encroaches channel p = false) {s : Session} (hchannel : s.channel = known)
    (hremote : s.state = .mapped → s.remoteChannel = some channel) :
    (c.withWay channel known s).Routed := by
  obtain ⟨halone, hfree⟩ := not_or.1 (mt (encroaches_iff hopened).2 (Bool.eq_false_iff.1 hspares))
  have hways (way other : UInt16)
      (h : (c.withWay channel known s).incomingChannels.get? way = some other) :
      way = channel ∧ other = known ∨
        way ≠ channel ∧ other ≠ known ∧ c.incomingChannels.get? way = some other := by
    change (c.incomingChannels.insert channel known).get? way = some other at h
    rw [Table.get?_insert] at h
    split_ifs at h with hway
    · cases h
      exact Or.inl ⟨hway, rfl⟩
    · exact Or.inr ⟨hway, fun heq => halone ⟨way, hway, heq ▸ h⟩, h⟩
  refine ⟨seated_insert hc.seated hchannel rfl, hc.leads.withWay channel known s, ?_, ?_⟩
  · intro way way' other hway hway'
    rcases hways way other hway with ⟨rfl, rfl⟩ | ⟨-, hne, hold⟩ <;>
      rcases hways way' other hway' with ⟨rfl, hother⟩ | ⟨-, hne', hold'⟩
    · rfl
    · exact absurd rfl hne'
    · exact absurd hother hne
    · exact hc.isApart way way' other hold hold'
  · intro other t ht hmapped
    change (c.sessions.insert known s).get? other = some t at ht
    change ∃ way, t.remoteChannel = some way ∧
      (c.incomingChannels.insert channel known).get? way = some other
    rw [Table.get?_insert] at ht
    split_ifs at ht with hother
    · cases ht
      exact ⟨channel, hremote hmapped, by rw [Table.get?_insert, if_pos rfl, hother]⟩
    · obtain ⟨way, hway, hleads⟩ := hc.reaches other t ht hmapped
      refine ⟨way, hway, ?_⟩
      rw [Table.get?_insert, if_neg, hleads]
      rintro rfl
      exact hfree ⟨other, t, hleads, hother, ht, hmapped⟩

/-- A way that encroaches is out of order. -/
theorem Routed.spares_of_withWay {p : Performative} {s : Session} (hc : c.Routed)
    (hopened : c.opened? p = some known) (hc' : (c.withWay channel known s).Routed) :
    c.encroaches channel p = false := by
  have hnew : (c.withWay channel known s).incomingChannels.get? channel = some known :=
    (Table.get?_insert _ _ _ _).trans (if_pos rfl)
  refine Bool.eq_false_iff.2 fun h => ?_
  rcases (encroaches_iff hopened).1 h with ⟨way, hne, hway⟩ | ⟨other, t, hway, hne, ht, hmapped⟩
  · have hold : (c.withWay channel known s).incomingChannels.get? way = some known :=
      (Table.get?_insert _ _ _ _).trans ((if_neg hne).trans hway)
    exact hne (hc'.isApart way channel known hold hnew)
  · have ht' : (c.withWay channel known s).sessions.get? other = some t :=
      (Table.get?_insert _ _ _ _).trans ((if_neg hne).trans ht)
    obtain ⟨way, hremote, hleads⟩ := hc.reaches other t ht hmapped
    obtain ⟨way', hremote', hleads'⟩ := hc'.reaches other t ht' hmapped
    cases hremote.symm.trans hremote'
    cases hc.isApart way channel other hleads hway
    exact hne (Option.some.inj (hleads'.symm.trans hnew))

/-- A Begin that does not encroach keeps ways in order, also when it fails. -/
theorem Routed.leaves_onBegin (hc : c.Routed) (hspares : c.encroaches channel (.begin v) = false) :
    Action.Leaves Routed (onBegin channel v c) := by
  refine steady_routed.onBegin hc (fun known s s' hremote hs hs' => ?_)
    fun fresh s hremote hfree hchannel hmet =>
      hc.withWay (opened?_of_fresh hremote hfree) hspares hchannel fun _ => hmet
  have hopened := opened?_of_known hremote hs
  have hchannel : s'.channel = known :=
    (hs'.elim Session.Settles.channel_eq And.left).trans (hc.seated known s hs)
  refine hc.withWay hopened hspares hchannel fun hmapped => ?_
  rcases hs' with hsettles | ⟨-, hmet⟩
  · obtain ⟨way, hway, hleads⟩ := hc.reaches known s hs (hsettles.mapped hmapped)
    rw [hsettles.remoteChannel_eq, hway]
    refine congrArg some (by_contra fun hne => ?_)
    exact Bool.eq_false_iff.1 hspares ((encroaches_iff hopened).2 (Or.inl ⟨way, hne, hleads⟩))
  · exact hmet

theorem onBegin_eq_ok (h : onBegin channel v c = .ok () c') :
    ∃ known s carrier, c.opened? (.begin v) = some known ∧
      c' = { c.withWay channel known s with carrier } := by
  cases hremote : v.remoteChannel with
  | some known =>
    cases hs : c.sessions.get? known with
    | none =>
      rw [onBegin_of_unknown hremote (Table.contains_of_get?_eq_none hs)] at h
      cases h
    | some s =>
      rw [onBegin_of_known hremote (Table.contains_of_get? hs)] at h
      obtain ⟨_, s', carrier, -, -, hc'⟩ := onSession_eq_ok h
      exact ⟨known, s', carrier, opened?_of_known hremote hs, hc'⟩
  | none =>
    cases hfree : c.freeChannel with
    | error f =>
      rw [onBegin_of_full hremote hfree] at h
      cases h
    | ok fresh =>
      rw [onBegin_of_fresh hremote hfree] at h
      generalize (Session.onBegin channel v : Session.Acting Carrier Unit) _ = begun at h
      cases begun with
      | ok _ y =>
        cases h
        exact ⟨fresh, y.1, y.2, opened?_of_fresh hremote hfree, rfl⟩
      | error halt y => cases h

/-- Exactly the Begins that encroach put ways out of order. -/
theorem Routed.routed_iff (hc : c.Routed) (h : dispatch channel (.begin v) c = .ok () c') :
    c'.Routed ↔ c.encroaches channel (.begin v) = false := by
  have hbegin : onBegin channel v c = .ok () c' := h
  refine ⟨fun hc' => ?_, fun hspares => ?_⟩
  · obtain ⟨known, s, carrier, hopened, rfl⟩ := onBegin_eq_ok hbegin
    exact hc.spares_of_withWay hopened (steady_routed.of_eq hc')
  · have hleaves := hc.leaves_onBegin hspares
    rw [hbegin] at hleaves
    exact hleaves

/-! ## Sessions that are released -/

/-- A session is gone when it has taken the peer's End, and so are the ways to it. -/
theorem released_of_end {s : Session} {way : UInt16} {v : End}
    (hway : c.incomingChannels.get? way = some known) (hs : c.sessions.get? known = some s)
    (h : dispatch way (.endFrame v) c = .ok () c') :
    c'.sessions.get? known = none ∧ ∀ way', c'.incomingChannels.get? way' ≠ some known := by
  change onSessionFrame way (.endFrame v) c = .ok () c' at h
  rw [onSessionFrame_of_known _ hway (Table.contains_of_get? hs)] at h
  unfold dropping at h
  cases hend : onSession known (Session.dispatch way (.endFrame v)) c with
  | error halt d =>
    rw [hend] at h
    cases h
  | ok _ d =>
    rw [hend] at h
    cases h
    obtain ⟨_, s', carrier, -, hended, rfl⟩ := onSession_eq_ok hend
    have hdropped : ((c.sessions.insert known s').get? known).any (·.state = .unmapped) = true := by
      rw [Table.get?_insert, if_pos rfl]
      exact decide_eq_true (Session.state_of_onEnd hended)
    unfold dropUnmapped
    rw [if_pos hdropped]
    exact ⟨(get?_release_sessions known known _).trans (if_pos rfl), fun way' hway' =>
      ((get?_release_incomingChannels known).1 hway').2 rfl⟩

theorem Routed.released (hc : c.Routed) {s : Session} (hs : c.sessions.get? known = some s)
    (hmapped : s.state = .mapped) :
    ∃ way, s.remoteChannel = some way ∧ ∀ v c', dispatch way (.endFrame v) c = .ok () c' →
      c'.sessions.get? known = none ∧ ∀ way', c'.incomingChannels.get? way' ≠ some known := by
  obtain ⟨way, hremote, hway⟩ := hc.reaches known s hs hmapped
  exact ⟨way, hremote, fun v c' => released_of_end hway hs⟩

/-! ## Courses -/

theorem routed_create (transport : Transport) (settings : Settings) (identity : String)
    (sessionName : UInt16 → String) : (create transport settings identity sessionName).Routed :=
  ⟨seated_create transport settings identity sessionName, (fun _ _ h => nomatch h),
    (fun _ _ _ h => nomatch h), (fun _ _ h => nomatch h)⟩

/-- Whatever calls and the peer make of a connection, its ways lead to sessions.  As long as no
Begin has encroached, they are in order; then the next Begin puts them out of order exactly if it
encroaches, and the peer's End on its channel releases a mapped session. -/
theorem routed_of_run (transport : Transport) (settings : Settings) (identity : String)
    (sessionName : UInt16 → String) :
    let start := create transport settings identity sessionName
    (∀ calls, (run calls start).Leads ∧ ∃ taken, Course start taken (run calls start)) ∧
      ∀ taken c, Course start taken c →
        (∀ x ∈ taken, encroaches x.2.1 x.2.2 x.1 = false) →
          c.Routed ∧
            (∀ channel v c', dispatch channel (.begin v) c = .ok () c' →
              (c'.Routed ↔ c.encroaches channel (.begin v) = false)) ∧
            ∀ known s, c.sessions.get? known = some s → s.state = .mapped →
              ∃ way, s.remoteChannel = some way ∧
                ∀ v c', dispatch way (.endFrame v) c = .ok () c' →
                  c'.sessions.get? known = none ∧
                    ∀ way', c'.incomingChannels.get? way' ≠ some known := by
  intro start
  have hstart : start.Routed := routed_create transport settings identity sessionName
  refine ⟨fun calls => ⟨stable_leads.run hstart.leads calls, course_of_run calls start⟩,
    fun taken c hcourse hspares => ?_⟩
  have hc : c.Routed := steady_routed.course hcourse hstart fun d channel v hmem _ hd =>
    hd.leaves_onBegin (hspares (d, channel, .begin v) hmem)
  exact ⟨hc, fun _ _ _ => hc.routed_iff, fun _ _ => hc.released⟩

/-- Two sessions that the peer begins have a way each. -/
theorem routed_of_begunApart :
    ∃ taken c, Course (overFrames [(6, peerBegin none)]) taken c ∧
      (∀ x ∈ taken, encroaches x.2.1 x.2.2 x.1 = false) ∧
      c.incomingChannels.entries = [(5, 0), (6, 1)] ∧ c.Routed := by
  have hcourse := (((Course.start.act (c := overFrames [(6, peerBegin none)])
    (.openUp .zero) rfl).poll (some 100)).poll (some 100)).poll (some 100)
  have hspares := (routed_of_run _ _ _ _).2 _ _ hcourse (by decide +kernel)
  exact ⟨_, _, hcourse, by decide +kernel, by decide +kernel, hspares.1⟩

/-- A Begin on channel 7 that names the session reached from channel 5 opens a second way to it,
though the session takes no notice.  A Begin on channel 5 that names none takes the way away. -/
theorem not_routed_of_begunAgain :
    let begunAgain (channel : UInt16) (frame : Frame) : Connection :=
      run [.openUp .unlimited, .poll (some 100), .poll (some 100)] (overFrames [(channel, frame)])
    let doubled := begunAgain 7 (peerBegin (some 0))
    let robbed := begunAgain 5 (peerBegin none)
    let sessions (c : Connection) : List (Session.State × Option UInt16) :=
      c.sessions.values.map fun s => (s.state, s.remoteChannel)
    (doubled.state = .opened ∧ sessions doubled = [(.mapped, some 5)] ∧
        doubled.incomingChannels.entries = [(5, 0), (7, 0)] ∧ ¬doubled.Routed) ∧
      robbed.state = .opened ∧ sessions robbed = [(.mapped, some 5), (.mapped, some 5)] ∧
        robbed.incomingChannels.entries = [(5, 1)] ∧ ¬robbed.Routed := by
  intro begunAgain doubled robbed sessions
  have hdoubled : doubled.incomingChannels.get? 5 = some 0 ∧
      doubled.incomingChannels.get? 7 = some 0 := by decide +kernel
  have hrobbed : (robbed.sessions.get? 0).map (fun s => (s.state, s.remoteChannel)) =
      some (.mapped, some 5) ∧ robbed.incomingChannels.get? 5 = some 1 := by decide +kernel
  refine ⟨⟨by decide +kernel, by decide +kernel, by decide +kernel, fun h => ?_⟩,
    by decide +kernel, by decide +kernel, by decide +kernel, fun h => ?_⟩
  · exact absurd (h.isApart 5 7 0 hdoubled.1 hdoubled.2) (by decide)
  · obtain ⟨⟨s, hs, hseat⟩, hway⟩ := And.imp_left Option.map_eq_some_iff.1 hrobbed
    obtain ⟨way, hremote, hleads⟩ := h.reaches 0 s hs (congrArg Prod.fst hseat)
    cases hremote.symm.trans (congrArg Prod.snd hseat)
    cases hway.symm.trans hleads

end Connection

end Amqp
