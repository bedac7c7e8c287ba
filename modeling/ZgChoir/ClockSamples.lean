import ZgChoir.NetworkClock

/-!
# What a turn of the heartbeat thread leaves of its measurements

An averager whose measurements all lie between two bounds answers with a
number between them, as long as the squares fit.  A turn of the thread takes
measurements away but never makes any; a heartbeat that it sends answers the
last packets of its sources, and remembers when it was sent.
-/

namespace ZgChoir

open HeartbeatWire (PZGTimingInfo PZGHeartbeatPeerInfo)

/-! ### Averages between bounds -/

namespace ZGTimeAverager

variable {lo hi : ℕ} {a : ZGTimeAverager} {m : UInt64} {now : ℕ}

/-- An averager with measurements, all of them between the bounds, and the
right total. -/
structure Within (lo hi : ℕ) (a : ZGTimeAverager) : Prop where
  measured : a.measurements ≠ []
  few : a.measurements.length ≤ 20
  total : a.totalMicros.toNat = ZGTimeAverager.total a.measurements
  within : ∀ m ∈ a.measurements, lo ≤ m.toNat ∧ m.toNat ≤ hi

theorem total_le_mul {ms : List UInt64} (h : ∀ m ∈ ms, m.toNat ≤ hi) :
    total ms ≤ ms.length * hi := by
  have hall : ∀ x ∈ ms.map UInt64.toNat, x ≤ hi := by
    intro x hx
    obtain ⟨m, hm, rfl⟩ := List.mem_map.mp hx
    exact h m hm
  have hsum := List.sum_le_card_nsmul _ _ hall
  rwa [List.length_map, smul_eq_mul] at hsum

/-- A measurement more, between the bounds. -/
theorem within_addMeasurement (hhi : hi < 2 ^ 29)
    (h : a = .new ∨ Within lo hi a) (hlo : lo ≤ m.toNat)
    (hle : m.toNat ≤ hi) : Within lo hi (a.addMeasurement 20 m now) := by
  have htotal : a.totalMicros.toNat = total a.measurements := by
    rcases h with rfl | h
    · rfl
    · exact h.total
  have hbounds : ∀ m ∈ a.measurements, lo ≤ m.toNat ∧ m.toNat ≤ hi := by
    rcases h with rfl | h
    · intro m hm
      cases hm
    · exact h.within
  obtain ⟨hleft, hsum⟩ : (removeOldMeasurements 20 a.measurements
      a.totalMicros).1 = a.measurements.rtake 19 ∧
      (removeOldMeasurements 20 a.measurements a.totalMicros).2.toNat =
        total (a.measurements.rtake 19) :=
    removeOldMeasurements_spec (by omega) a.measurements a.totalMicros htotal
  have hmeasurements : (a.addMeasurement 20 m now).measurements =
      a.measurements.rtake 19 ++ [m] := congrArg (· ++ [m]) hleft
  have hfew : (a.measurements.rtake 19).length ≤ 19 :=
    Windows.length_rtake_le
  have hkept : ∀ m ∈ a.measurements.rtake 19, lo ≤ m.toNat ∧ m.toNat ≤ hi :=
    fun m hm => hbounds m (Windows.rtake_suffix.subset hm)
  have hsmall : total (a.measurements.rtake 19) ≤ 19 * hi :=
    (total_le_mul fun m hm => (hkept m hm).2).trans
      (Nat.mul_le_mul_right _ hfew)
  refine ⟨?_, ?_, ?_, ?_⟩
  · rw [hmeasurements]
    exact List.append_ne_nil_of_right_ne_nil _ (List.cons_ne_nil _ _)
  · rw [hmeasurements, List.length_append, List.length_singleton]
    omega
  · have hnew : total (a.measurements.rtake 19 ++ [m]) =
        total (a.measurements.rtake 19) + m.toNat := by
      simp [ZGTimeAverager.total]
    rw [hmeasurements, hnew]
    change (saturatingUnsignedAdd _ m).toNat = _
    rw [toNat_saturatingUnsignedAdd, hsum]
    omega
  · rw [hmeasurements]
    intro m' hm'
    rcases List.mem_append.mp hm' with hm' | hm'
    · exact hkept m' hm'
    · rw [List.mem_singleton.mp hm']
      exact ⟨hlo, hle⟩

/-- **The average is between the bounds.** -/
theorem Within.average (hhi : hi < 2 ^ 29) (h : Within lo hi a) :
    lo ≤ a.getAverageValueIgnoringOutliersAux.toNat ∧
      a.getAverageValueIgnoringOutliersAux.toNat ≤ hi := by
  have hsum : ZGTimeAverager.total a.measurements ≤ 20 * hi :=
    (total_le_mul fun m hm => (h.within m hm).2).trans
      (Nat.mul_le_mul_right _ h.few)
  have hfits : Fits a.measurements := by
    refine ⟨by omega, .inr ?_⟩
    obtain ⟨m, hm⟩ := List.exists_mem_of_ne_nil _ h.measured
    have hclose : distance a.measurements m ≤ hi := by
      obtain ⟨-, top, htop, hle⟩ := average_between h.measured
      have hm' := (h.within m hm).2
      have htop' := (h.within top htop).2
      unfold distance
      omega
    have hsquare : distance a.measurements m ^ 2 ≤ (2 ^ 29) ^ 2 :=
      Nat.pow_le_pow_left (by omega) 2
    have hall := Nat.mul_le_mul h.few hsquare
    exact ⟨m, hm, by omega⟩
  have hlen := h.few
  obtain ⟨-, ⟨low, hlow, hle⟩, top, htop, hge⟩ :=
    averagesOf_of_fits (by omega) h.total h.measured hfits
  have hle' := UInt64.le_iff_toNat_le.mp hle
  have hge' := UInt64.le_iff_toNat_le.mp hge
  exact ⟨(h.within low hlow).1.trans hle', hge'.trans (h.within top htop).2⟩

end ZGTimeAverager

/-! ### What the thread leaves alone -/

namespace PZGHeartbeatThreadState

variable {Addr : Type} [DecidableEq Addr]
  {s s' : PZGHeartbeatThreadState Addr}
  {source : PZGHeartbeatSourceKey Addr}

/-- The clock reads the same, and the settings are the same. -/
structure SameClock (s s' : PZGHeartbeatThreadState Addr) : Prop where
  now : s'.now = s.now
  hbSettings : s'.hbSettings = s.hbSettings

omit [DecidableEq Addr] in
theorem SameClock.refl (s : PZGHeartbeatThreadState Addr) : SameClock s s :=
  ⟨rfl, rfl⟩

omit [DecidableEq Addr] in
theorem SameClock.trans {s₁ s₂ s₃ : PZGHeartbeatThreadState Addr}
    (h : SameClock s₁ s₂) (h' : SameClock s₂ s₃) : SameClock s₁ s₃ :=
  ⟨h'.now.trans h.now, h'.hbSettings.trans h.hbSettings⟩

theorem sameClock_expireSource : SameClock s (s.expireSource source) := by
  unfold expireSource
  cases s.onlineSources.lookup source with
  | none => exact .refl s
  | some _ => exact ⟨rfl, rfl⟩

theorem sameClock_heartbeatReceived
    (s : PZGHeartbeatThreadState Addr) (source : PZGHeartbeatSourceKey Addr)
    (newSource : PZGHeartbeatSourceState) :
    SameClock s (s.heartbeatReceived source newSource) := by
  unfold heartbeatReceived
  cases s.onlineSources.lookup source with
  | none => exact ⟨rfl, rfl⟩
  | some oldSource =>
      dsimp only
      split
      · split <;> exact ⟨rfl, rfl⟩
      · exact sameClock_expireSource.trans ⟨rfl, rfl⟩

theorem sameClock_receiveMulticastTraffic {a : Addr}
    {newHB : PZGHeartbeatPacketWithMetaData} {t : ℕ} :
    SameClock s (s.receiveMulticastTraffic a newHB t) := by
  have hscheduled : ∀ s : PZGHeartbeatThreadState Addr, SameClock s
      (if s.updateOfficialPeersListPending = false ∧
        newHB.sourcePeerID = s.getKingmakerPeerID then
        s.scheduleUpdateOfficialPeersList false else s) := by
    intro s
    split <;> exact ⟨rfl, rfl⟩
  have hoffset : ∀ s : PZGHeartbeatThreadState Addr, SameClock s
      (if newHB.sourcePeerID = s.getSeniorPeerID then
        { s with updateToNetworkTimeOffsetPending := true } else s) := by
    intro s
    split <;> exact ⟨rfl, rfl⟩
  unfold receiveMulticastTraffic
  dsimp only
  split
  · exact .refl s
  · split
    · exact .refl s
    · exact (sameClock_heartbeatReceived s _ _).trans
        ((hscheduled _).trans (hoffset _))

theorem sameClock_pulseExpire : SameClock s s.pulseExpire := by
  unfold pulseExpire
  refine List.foldlRecOn (motive := SameClock s) _ _ (.refl s) ?_
  intro s' hs' source _
  split
  · exact hs'.trans sameClock_expireSource
  · exact hs'

omit [DecidableEq Addr] in
theorem sameClock_pulseAttach : SameClock s s.pulseAttach := by
  unfold pulseAttach
  split <;> exact ⟨rfl, rfl⟩

variable [IPAddressAndPort Addr]

/-- The order of the peers leaves the time of the next heartbeat alone,
too. -/
theorem sameClock_calculateOrderedPeersList
    (s : PZGHeartbeatThreadState Addr) :
    SameClock s s.calculateOrderedPeersList.1 ∧
      s.calculateOrderedPeersList.1.nextSendHeartbeatTime =
        s.nextSendHeartbeatTime := by
  unfold calculateOrderedPeersList
  cases s.getKingmakerPeerSource.filter (·.isValid) with
  | none => exact ⟨⟨rfl, rfl⟩, rfl⟩
  | some _ => exact ⟨⟨rfl, rfl⟩, rfl⟩

theorem sameClock_pulseSend (s : PZGHeartbeatThreadState Addr)
    (canSend : Bool) : SameClock s (s.pulseSend canSend) := by
  unfold pulseSend
  split
  · dsimp only
    split
    · have hlist := (sameClock_calculateOrderedPeersList
        { s with nextSendHeartbeatTime := s.now + s.heartbeatPingInterval }).1
      exact ⟨hlist.now, hlist.hbSettings⟩
    · exact ⟨rfl, rfl⟩
  · exact .refl s

theorem sameClock_updateOfficialPeersList
    (s : PZGHeartbeatThreadState Addr) (forceUpdate : Bool) :
    SameClock s (s.updateOfficialPeersList forceUpdate).1 ∧
      (s.updateOfficialPeersList forceUpdate).1.nextSendHeartbeatTime =
        s.nextSendHeartbeatTime := by
  have hlist := sameClock_calculateOrderedPeersList s
  unfold updateOfficialPeersList
  generalize s.calculateOrderedPeersList = r at *
  obtain ⟨⟨hnow, hsettings⟩, hnext⟩ := hlist
  dsimp only
  split <;> exact ⟨⟨hnow, hsettings⟩, hnext⟩

theorem sameClock_pulseOfficialPeersList
    (s : PZGHeartbeatThreadState Addr) :
    SameClock s s.pulseOfficialPeersList.1 ∧
      s.pulseOfficialPeersList.1.nextSendHeartbeatTime =
        s.nextSendHeartbeatTime := by
  unfold pulseOfficialPeersList
  split
  · obtain ⟨⟨hnow, hsettings⟩, hnext⟩ := sameClock_updateOfficialPeersList
      { s with
        updateOfficialPeersListPending := false
        forceOfficialPeersUpdate := false } s.forceOfficialPeersUpdate
    exact ⟨⟨hnow, hsettings⟩, hnext⟩
  · exact ⟨.refl s, rfl⟩

theorem sameClock_pulse (s : PZGHeartbeatThreadState Addr)
    (canSend : Bool) : SameClock s (s.pulse canSend).1 := by
  unfold pulse
  refine (sameClock_pulseOfficialPeersList s).1.trans ?_
  refine SameClock.trans ?_ sameClock_pulseAttach
  refine SameClock.trans ?_ sameClock_pulseExpire
  obtain ⟨hnow, hsettings⟩ := sameClock_pulseSend
    { s.pulseOfficialPeersList.1 with
      updateToNetworkTimeOffsetPending := false } canSend
  exact ⟨hnow, hsettings⟩

end PZGHeartbeatThreadState

/-! ### Timings that stay -/

namespace TimedHeartbeatThread

variable {Addr : Type}

/-- The timing of a source, less some of its averagers. -/
structure LeftOf (t t' : SourceTiming Addr) : Prop where
  packetID : t'.heartbeatPacketID = t.heartbeatPacketID
  received : t'.localReceiveTimeMicros = t.localReceiveTimeMicros
  averagers : ∀ e ∈ t'.rttAveragers.entries, e ∈ t.rttAveragers.entries

theorem LeftOf.refl (t : SourceTiming Addr) : LeftOf t t :=
  ⟨rfl, rfl, fun _ he => he⟩

theorem LeftOf.trans {t₁ t₂ t₃ : SourceTiming Addr} (h : LeftOf t₁ t₂)
    (h' : LeftOf t₂ t₃) : LeftOf t₁ t₃ :=
  ⟨h'.packetID.trans h.packetID, h'.received.trans h.received,
    fun e he => h.averagers e (h'.averagers e he)⟩

variable [DecidableEq Addr] {st st' : TimedHeartbeatThread Addr}
  {p : ZGPeerID} {source : PZGHeartbeatSourceKey Addr}

/-- Timings may go, but none comes. -/
def NoNewTimings (st st' : TimedHeartbeatThread Addr) : Prop :=
  ∀ source t', st'.timings.get? source = some t' →
    ∃ t, st.timings.get? source = some t ∧ LeftOf t t'

theorem noNewTimings_of_eq (h : st'.timings = st.timings) :
    NoNewTimings st st' := by
  intro source t' ht'
  rw [h] at ht'
  exact ⟨t', ht', .refl t'⟩

theorem NoNewTimings.refl (st : TimedHeartbeatThread Addr) :
    NoNewTimings st st := noNewTimings_of_eq rfl

theorem NoNewTimings.trans {st₁ st₂ st₃ : TimedHeartbeatThread Addr}
    (h : NoNewTimings st₁ st₂) (h' : NoNewTimings st₂ st₃) :
    NoNewTimings st₁ st₃ := by
  intro source t₃ ht₃
  obtain ⟨t₂, ht₂, hleft'⟩ := h' source t₃ ht₃
  obtain ⟨t₁, ht₁, hleft⟩ := h source t₂ ht₂
  exact ⟨t₁, ht₁, hleft.trans hleft'⟩

theorem noNewTimings_foldl {α : Type}
    {f : TimedHeartbeatThread Addr → α → TimedHeartbeatThread Addr}
    (hf : ∀ st a, NoNewTimings st (f st a)) (as : List α)
    (st : TimedHeartbeatThread Addr) : NoNewTimings st (as.foldl f st) := by
  induction as generalizing st with
  | nil => exact .refl st
  | cons a as ih => exact (hf st a).trans (ih (f st a))

/-- A timing is put back with less. -/
theorem noNewTimings_put {t t' : SourceTiming Addr}
    (ht : st.timings.get? source = some t) (hleft : LeftOf t t') :
    NoNewTimings st { st with timings := st.timings.put source t' } := by
  intro source' t'' ht''
  have hput : (st.timings.put source t').get? source' = some t'' := ht''
  rw [Hashtable.get?_put] at hput
  by_cases heq : source' = source
  · rw [if_pos heq] at hput
    obtain rfl := Option.some.inj hput
    exact ⟨t, heq ▸ ht, hleft⟩
  · rw [if_neg heq] at hput
    exact ⟨t'', hput, .refl t''⟩

theorem noNewTimings_expireSource :
    NoNewTimings st (st.expireSource source) := by
  intro source' t' ht'
  have hremove : (st.timings.remove source).get? source' = some t' := ht'
  rw [Hashtable.get?_remove] at hremove
  by_cases heq : source' = source
  · rw [if_pos heq] at hremove
    cases hremove
  · rw [if_neg heq] at hremove
    exact ⟨t', hremove, .refl t'⟩

theorem noNewTimings_removeTag {iap : Addr} {tag : UInt16} :
    NoNewTimings st (st.removeTag iap tag) := by
  intro source' t' ht'
  have hmap : (st.timings.mapValues fun _ t =>
      { t with rttAveragers := t.rttAveragers.remove iap }).get? source' =
      some t' := ht'
  rw [Hashtable.get?_mapValues] at hmap
  obtain ⟨t, ht, rfl⟩ := Option.map_eq_some_iff.mp hmap
  refine ⟨t, ht, rfl, rfl, fun e he => ?_⟩
  exact List.mem_of_mem_filter he

theorem noNewTimings_ensureHeartbeatSourceTagsTableUpdated
    {dests : List Addr} :
    NoNewTimings st (st.ensureHeartbeatSourceTagsTableUpdated dests) := by
  unfold ensureHeartbeatSourceTagsTableUpdated
  refine (noNewTimings_foldl ?_ _ _).trans (noNewTimings_foldl ?_ _ _)
  · intro st e
    by_cases hmem : e.1 ∈ dests
    · simp only [if_pos hmem]
      exact .refl st
    · simp only [if_neg hmem]
      exact noNewTimings_removeTag
  · intro st iap
    unfold addTag
    split
    · exact .refl st
    · exact noNewTimings_of_eq rfl

theorem noNewTimings_pulseExpire : NoNewTimings st st.pulseExpire := by
  unfold pulseExpire
  refine noNewTimings_foldl ?_ _ _
  intro st source
  split
  · exact noNewTimings_expireSource
  · exact .refl st

/-! ### Answers -/

/-- An entry answers the last packet of a source of the peer, kept until
now. -/
def AnswersPacket (st : TimedHeartbeatThread Addr) (p : ZGPeerID)
    (ti : PZGTimingInfo) : Prop :=
  ∃ source t, source.peerID = p ∧ st.timings.get? source = some t ∧
    ti.heartbeatPacketID = t.heartbeatPacketID ∧
    ti.dwellTimeMicros = dwellTimeMicros (.ofNat st.thread.now)
      (.ofNat t.localReceiveTimeMicros)

theorem AnswersPacket.before {ti : PZGTimingInfo} (h : NoNewTimings st st')
    (hnow : st'.thread.now = st.thread.now) (hti : AnswersPacket st' p ti) :
    AnswersPacket st p ti := by
  obtain ⟨source, t', hp, ht', hid, hdwell⟩ := hti
  obtain ⟨t, ht, hleft⟩ := h source t' ht'
  refine ⟨source, t, hp, ht, hid.trans hleft.packetID, ?_⟩
  rw [hdwell, hnow, hleft.received]

/-- What `peerInfoFor` says of a peer, after some of its addresses. -/
structure SaysOf (st : TimedHeartbeatThread Addr) (p : ZGPeerID)
    (r : PZGHeartbeatPeerInfo × TimedHeartbeatThread Addr) : Prop where
  peerID : r.1.peerID = p
  answers : ∀ ti ∈ r.1.timings, AnswersPacket st p ti
  noNew : NoNewTimings st r.2
  thread : r.2.thread = st.thread
  sendTimes : r.2.recentlySentHeartbeatLocalSendTimes =
    st.recentlySentHeartbeatLocalSendTimes

theorem saysOf_peerInfoFor (st : TimedHeartbeatThread Addr) (p : ZGPeerID) :
    SaysOf st p (st.peerInfoFor p) := by
  unfold peerInfoFor
  refine List.foldlRecOn (motive := SaysOf st p) _ _
    ⟨rfl, (fun _ hti => nomatch hti), .refl st, rfl, rfl⟩ ?_
  intro r hr address _
  obtain ⟨hp, hanswers, hnoNew, hthread, htimes⟩ := hr
  dsimp only
  cases ht : r.2.timings.get? ⟨address, p⟩ with
  | none => exact ⟨hp, hanswers, hnoNew, hthread, htimes⟩
  | some phb =>
      by_cases hsent : phb.haveSentTimingReply = true
      · simp only [if_pos hsent]
        exact ⟨hp, hanswers, hnoNew, hthread, htimes⟩
      · simp only [if_neg hsent]
        refine ⟨hp, fun ti hti => ?_, hnoNew.trans
          (noNewTimings_put ht ⟨rfl, rfl, fun _ he => he⟩), hthread, htimes⟩
        rcases List.mem_append.mp hti with hti | hti
        · exact hanswers ti hti
        · rw [List.mem_singleton.mp hti]
          refine AnswersPacket.before hnoNew (by rw [hthread])
            ⟨⟨address, p⟩, phb, rfl, ht, rfl, rfl⟩

variable [IPAddressAndPort Addr]

/-- What a list of peers says. -/
structure SaysOfAll (st : TimedHeartbeatThread Addr)
    (r : List PZGHeartbeatPeerInfo × TimedHeartbeatThread Addr) : Prop where
  answers : ∀ info ∈ r.1, ∀ ti ∈ info.timings,
    AnswersPacket st info.peerID ti
  noNew : NoNewTimings st r.2
  now : r.2.thread.now = st.thread.now
  sendTimes : r.2.recentlySentHeartbeatLocalSendTimes =
    st.recentlySentHeartbeatLocalSendTimes

/-- **A list of peers** answers the packets that the thread has. -/
theorem saysOfAll_outgoingPeersList (st : TimedHeartbeatThread Addr) :
    SaysOfAll st st.outgoingPeersList := by
  unfold outgoingPeersList
  by_cases hlists : st.thread.hbSettings.peerType = peerTypeFullPeer ∧
      st.thread.halfAttachedTime ≤ st.thread.now
  · rw [if_pos hlists]
    dsimp only
    refine List.foldlRecOn (motive := SaysOfAll st) _ _
      ⟨(fun _ hinfo => nomatch hinfo), noNewTimings_of_eq rfl,
        (PZGHeartbeatThreadState.sameClock_calculateOrderedPeersList
          st.thread).1.now, rfl⟩ ?_
    intro r hr pid _
    obtain ⟨hanswers, hnoNew, hnow, htimes⟩ := hr
    obtain ⟨hp, htold, hnoNew', hthread, htimes'⟩ :=
      saysOf_peerInfoFor r.2 pid
    refine ⟨fun info hinfo => ?_, hnoNew.trans hnoNew',
      by rw [hthread, hnow], htimes'.trans htimes⟩
    rcases List.mem_append.mp hinfo with hinfo | hinfo
    · exact hanswers info hinfo
    · rw [List.mem_singleton.mp hinfo]
      intro ti hti
      rw [hp]
      exact (htold ti hti).before hnoNew hnow
  · rw [if_neg hlists]
    exact ⟨(fun _ hinfo => nomatch hinfo), .refl st, rfl, rfl⟩

/-! ### A turn -/

variable {average : ZGTimeAverager → UInt64} {dests : List Addr}

omit [IPAddressAndPort Addr] in
theorem sendTimes_ensureHeartbeatSourceTagsTableUpdated
    (st : TimedHeartbeatThread Addr) :
    (st.ensureHeartbeatSourceTagsTableUpdated
      dests).recentlySentHeartbeatLocalSendTimes =
      st.recentlySentHeartbeatLocalSendTimes := by
  have htags : ∀ (es : List (Addr × UInt16)) (st : TimedHeartbeatThread Addr),
      (es.foldl (fun st e =>
        if e.1 ∈ dests then st else st.removeTag e.1 e.2)
          st).recentlySentHeartbeatLocalSendTimes =
        st.recentlySentHeartbeatLocalSendTimes := by
    intro es
    induction es with
    | nil => exact fun _ => rfl
    | cons e es ih =>
        intro st
        rw [List.foldl_cons, ih]
        split <;> rfl
  have hnew : ∀ (as : List Addr) (st : TimedHeartbeatThread Addr),
      (as.foldl addTag st).recentlySentHeartbeatLocalSendTimes =
        st.recentlySentHeartbeatLocalSendTimes := by
    intro as
    induction as with
    | nil => exact fun _ => rfl
    | cons a as ih =>
        intro st
        rw [List.foldl_cons, ih, addTag]
        split <;> rfl
  unfold ensureHeartbeatSourceTagsTableUpdated
  rw [hnew]
  exact htags _ _

theorem noNewTimings_sendHeartbeatPackets :
    NoNewTimings st (st.sendHeartbeatPackets dests) := by
  unfold sendHeartbeatPackets
  split
  · exact .refl st
  · have hlist := (saysOfAll_outgoingPeersList
      { st with outgoingHeartbeatPacketIDCounter :=
          st.outgoingHeartbeatPacketIDCounter + 1 }).noNew
    exact (NoNewTimings.trans (noNewTimings_of_eq rfl) hlist).trans
      (noNewTimings_ensureHeartbeatSourceTagsTableUpdated.trans
        (noNewTimings_of_eq rfl))

theorem noNewTimings_pulse : NoNewTimings st (st.pulse average dests) := by
  unfold pulse pulseSend
  dsimp only
  split
  · refine NoNewTimings.trans ?_ (noNewTimings_pulseExpire.trans
      (noNewTimings_of_eq rfl))
    refine NoNewTimings.trans ?_ (noNewTimings_sendHeartbeatPackets.trans
      (noNewTimings_of_eq rfl))
    exact noNewTimings_of_eq rfl
  · refine NoNewTimings.trans ?_ (noNewTimings_pulseExpire.trans
      (noNewTimings_of_eq rfl))
    exact noNewTimings_of_eq rfl

/-- The time of a heartbeat is found by its ID, or forgotten; those of the
others stay or are forgotten. -/
theorem get?_rememberSendTime {sendTimes : Hashtable UInt32 UInt64}
    {id id' : UInt32} {now t : UInt64}
    (h : (rememberSendTime sendTimes id now).get? id' = some t) :
    (id' = id ∧ t = now) ∨ (id' ≠ id ∧ sendTimes.get? id' = some t) := by
  have hput : (sendTimes.put id now).get? id' = some t := by
    unfold rememberSendTime at h
    dsimp only at h
    cases hkeys : (sendTimes.put id now).keys with
    | nil =>
        rw [hkeys] at h
        exact h
    | cons first rest =>
        rw [hkeys] at h
        dsimp only at h
        split at h
        · rw [Hashtable.get?_remove] at h
          split at h
          · cases h
          · exact h
        · exact h
  rw [Hashtable.get?_put] at hput
  by_cases heq : id' = id
  · rw [if_pos heq] at hput
    exact .inl ⟨heq, (Option.some.inj hput).symm⟩
  · rw [if_neg heq] at hput
    exact .inr ⟨heq, hput⟩

omit [IPAddressAndPort Addr] in
theorem sendTimes_pulseExpire :
    st.pulseExpire.recentlySentHeartbeatLocalSendTimes =
      st.recentlySentHeartbeatLocalSendTimes := by
  unfold pulseExpire
  refine List.foldlRecOn (motive := fun st' : TimedHeartbeatThread Addr =>
    st'.recentlySentHeartbeatLocalSendTimes =
      st.recentlySentHeartbeatLocalSendTimes) _ _ rfl ?_
  intro st' hst' source _
  split
  · exact hst'
  · exact hst'

theorem sendTimes_sendHeartbeatPackets (st : TimedHeartbeatThread Addr)
    (hdests : dests.isEmpty = false) :
    (st.sendHeartbeatPackets dests).recentlySentHeartbeatLocalSendTimes =
      rememberSendTime st.recentlySentHeartbeatLocalSendTimes
        (st.outgoingHeartbeatPacketIDCounter + 1)
        (.ofNat st.thread.now) := by
  have htold := saysOfAll_outgoingPeersList
    { st with outgoingHeartbeatPacketIDCounter :=
        st.outgoingHeartbeatPacketIDCounter + 1 }
  unfold sendHeartbeatPackets
  rw [if_neg (by simp [hdests])]
  dsimp only
  rw [sendTimes_ensureHeartbeatSourceTagsTableUpdated, htold.sendTimes,
    sameTables_ensureHeartbeatSourceTagsTableUpdated.thread, htold.now]

/-- **A turn remembers** when it has sent its heartbeat. -/
theorem sendTimes_pulse (st : TimedHeartbeatThread Addr)
    (dests : List Addr) :
    (st.pulse average dests).recentlySentHeartbeatLocalSendTimes =
      if st.thread.nextSendHeartbeatTime ≤ st.thread.now ∧
          dests.isEmpty = false then
        rememberSendTime st.recentlySentHeartbeatLocalSendTimes
          (st.outgoingHeartbeatPacketIDCounter + 1) (.ofNat st.thread.now)
      else st.recentlySentHeartbeatLocalSendTimes := by
  obtain ⟨hclock, hnext⟩ :=
    PZGHeartbeatThreadState.sameClock_pulseOfficialPeersList st.thread
  unfold pulse
  dsimp only
  rw [sendTimes_pulseExpire]
  unfold pulseSend
  dsimp only
  rw [hnext, hclock.now]
  by_cases hdue : st.thread.nextSendHeartbeatTime ≤ st.thread.now
  · rw [if_pos hdue, updateLatencies]
    cases hnone : dests.isEmpty with
    | true =>
        rw [if_neg (by simp), sendHeartbeatPackets, if_pos hnone]
    | false =>
        rw [if_pos ⟨hdue, rfl⟩, sendTimes_sendHeartbeatPackets _ hnone]
  · rw [if_neg hdue, if_neg fun h => hdue h.1]

/-! ### A packet that comes in -/

omit [IPAddressAndPort Addr] in
/-- What is kept of a packet, and the averagers of its source. -/
theorem spec_timingAfter (st : TimedHeartbeatThread Addr)
    (source : PZGHeartbeatSourceKey Addr) (tag : UInt16)
    (newHB : PZGHeartbeatPacketWithMetaData) (now : ℕ)
    (m : Option (Measurement Addr)) :
    (st.timingAfter source tag newHB now m).heartbeatPacketID =
        newHB.heartbeatPacketID ∧
      (st.timingAfter source tag newHB now m).localReceiveTimeMicros = now ∧
      ∀ e ∈ (st.timingAfter source tag newHB now m).rttAveragers.entries,
        ∃ t, st.timings.get? source = some t ∧
          (e ∈ t.rttAveragers.entries ∨
            ∃ m', m = some m' ∧
              e.2 = ((t.rttAveragers.get? m'.multicastAddr).getD
                .new).addMeasurement 20 m'.newMeasurementMicros
                  st.thread.now) := by
  unfold timingAfter
  dsimp only
  cases st.thread.onlineSources.lookup source with
  | none => exact ⟨rfl, rfl, fun e he => absurd he List.not_mem_nil⟩
  | some oldSource =>
      cases ht : st.timings.get? source with
      | none => exact ⟨rfl, rfl, fun e he => absurd he List.not_mem_nil⟩
      | some t =>
          dsimp only
          split
          · refine ⟨rfl, rfl, fun e he => ⟨t, rfl, ?_⟩⟩
            cases m with
            | none => exact .inl he
            | some m =>
                rcases Hashtable.mem_entries_put.mp he with rfl | ⟨he, -⟩
                · exact .inr ⟨m, rfl, rfl⟩
                · exact .inl he
          · exact ⟨rfl, rfl, fun e he => absurd he List.not_mem_nil⟩

end TimedHeartbeatThread

end ZgChoir
