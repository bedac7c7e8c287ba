import ZgChoir.HeartbeatTiming

/-!
# The tables of the heartbeat thread belong together

A step of the thread with its measurements is a step of the thread alone
(`thread_step`), so what holds of the sources in each of its runs holds here.
What comes on top is the table that the main thread reads: it never has a
latency of a peer that is not there.
-/

namespace ZgChoir

open PZGHeartbeatThreadState (Coherent addressesOf)

namespace TimedHeartbeatThread

variable {Addr : Type} [DecidableEq Addr]
variable {st st' : TimedHeartbeatThread Addr} {p : ZGPeerID}
variable {source : PZGHeartbeatSourceKey Addr}

/-! ### The thread below -/

theorem thread_receiveMulticastTraffic {a : Addr} {tag : UInt16}
    {newHB : HeartbeatWire.PZGHeartbeatPacket} {t : ℕ} :
    (st.receiveMulticastTraffic a tag newHB t).thread =
      st.thread.receiveMulticastTraffic a newHB.withMetaData t := by
  unfold receiveMulticastTraffic
  dsimp only
  split <;> rfl

theorem thread_pulseExpire :
    st.pulseExpire.thread = st.thread.pulseExpire := by
  unfold pulseExpire PZGHeartbeatThreadState.pulseExpire
  generalize st.thread.onlineSources.entries = sources
  induction sources generalizing st with
  | nil => rfl
  | cons source sources ih =>
      rw [List.foldl_cons, List.foldl_cons]
      split
      · exact ih
      · exact ih

/-- What sending heartbeats has to do with timing leaves the sources and the
latencies alone. -/
structure SameTables (st st' : TimedHeartbeatThread Addr) : Prop where
  thread : st'.thread = st.thread
  latencies : st'.mainThreadLatencies = st.mainThreadLatencies

omit [DecidableEq Addr] in
theorem SameTables.refl (st : TimedHeartbeatThread Addr) : SameTables st st :=
  ⟨rfl, rfl⟩

omit [DecidableEq Addr] in
theorem SameTables.trans {st₁ st₂ st₃ : TimedHeartbeatThread Addr}
    (h : SameTables st₁ st₂) (h' : SameTables st₂ st₃) : SameTables st₁ st₃ :=
  ⟨h'.thread.trans h.thread, h'.latencies.trans h.latencies⟩

omit [DecidableEq Addr] in
/-- A fold whose steps leave the tables alone. -/
theorem sameTables_foldl {α β : Type} (state : β → TimedHeartbeatThread Addr)
    {f : β → α → β} (hf : ∀ b a, SameTables (state b) (state (f b a)))
    (as : List α) (b : β) : SameTables (state b) (state (as.foldl f b)) := by
  induction as generalizing b with
  | nil => exact .refl _
  | cons a as ih => exact (hf b a).trans (ih (f b a))

theorem sameTables_peerInfoFor : SameTables st (st.peerInfoFor p).2 := by
  unfold peerInfoFor
  refine sameTables_foldl Prod.snd ?_ _
    ((⟨p, []⟩ : HeartbeatWire.PZGHeartbeatPeerInfo), st)
  rintro ⟨info, st⟩ address
  dsimp only
  split
  · split <;> exact ⟨rfl, rfl⟩
  · exact .refl _

theorem sameTables_ensureHeartbeatSourceTagsTableUpdated {dests : List Addr} :
    SameTables st (st.ensureHeartbeatSourceTagsTableUpdated dests) := by
  unfold ensureHeartbeatSourceTagsTableUpdated
  refine (sameTables_foldl id ?_ _ _).trans (sameTables_foldl id ?_ _ _)
  · rintro st ⟨iap, tag⟩
    dsimp only
    split <;> exact ⟨rfl, rfl⟩
  · intro st iap
    rw [addTag]
    split <;> exact ⟨rfl, rfl⟩

variable [IPAddressAndPort Addr]

/-- The thread after its heartbeats: the peers may have been sorted. -/
def afterSending (canSend : Bool) (s : PZGHeartbeatThreadState Addr) :
    PZGHeartbeatThreadState Addr :=
  if canSend ∧ s.hbSettings.peerType = peerTypeFullPeer ∧
      s.halfAttachedTime ≤ s.now then s.calculateOrderedPeersList.1
  else s

theorem sameTables_sendHeartbeatPackets (st : TimedHeartbeatThread Addr)
    (dests : List Addr) :
    SameTables { st with thread := afterSending (!dests.isEmpty) st.thread }
      (st.sendHeartbeatPackets dests) := by
  unfold sendHeartbeatPackets afterSending
  cases dests.isEmpty with
  | true => exact ⟨by simp, rfl⟩
  | false =>
      refine SameTables.trans ?_
        (sameTables_ensureHeartbeatSourceTagsTableUpdated.trans ⟨rfl, rfl⟩)
      unfold outgoingPeersList
      simp only [Bool.not_false, true_and]
      split
      · refine SameTables.trans ?_ (sameTables_foldl Prod.snd ?_ _ _)
        · exact ⟨rfl, rfl⟩
        · rintro ⟨infos, st⟩ pid
          exact sameTables_peerInfoFor
      · exact ⟨rfl, rfl⟩

variable {average : ZGTimeAverager → UInt64}

theorem thread_pulseSend {dests : List Addr} :
    (st.pulseSend average dests).thread =
      st.thread.pulseSend (!dests.isEmpty) := by
  unfold pulseSend PZGHeartbeatThreadState.pulseSend
  split
  · exact (sameTables_sendHeartbeatPackets _ dests).thread
  · rfl

theorem thread_pulse {dests : List Addr} :
    (st.pulse average dests).thread =
      (st.thread.pulse (!dests.isEmpty)).1 := by
  simp [pulse, PZGHeartbeatThreadState.pulse, thread_pulseExpire,
    thread_pulseSend]

/-- An event, as the thread below sees it. -/
def Event.below : Event Addr → PZGHeartbeatThreadState.Event Addr
  | .awoke elapsedMicros dests => .awoke elapsedMicros !dests.isEmpty
  | .received sourceIAP _ newHB localReceiveTimeMicros =>
      .received sourceIAP newHB.withMetaData localReceiveTimeMicros

/-- **Refinement.** The measurements never get into the way of the thread. -/
theorem thread_step (e : Event Addr) :
    (st.step average e).thread = st.thread.step e.below := by
  cases e with
  | awoke elapsedMicros dests =>
      simp only [step, wake, Event.below, PZGHeartbeatThreadState.step,
        PZGHeartbeatThreadState.handle, PZGHeartbeatThreadState.wake]
      split
      · exact thread_pulse
      · rfl
  | received sourceIAP sourceTag newHB localReceiveTimeMicros =>
      exact thread_receiveMulticastTraffic

/-! ### The latencies -/

/-- What is left of the tables, whatever happens to a state in between. -/
structure Consistent (st : TimedHeartbeatThread Addr) : Prop where
  coherent : Coherent st.thread
  latencies : ∀ {p}, p ∈ st.mainThreadLatencies →
    p ∈ st.thread.peerIDToIPAddresses

omit [IPAddressAndPort Addr] in
theorem consistent_initialized {hbSettings : PZGHeartbeatSettings}
    {startTime : ℕ} {id : UInt32} :
    Consistent (initialized hbSettings startTime id :
      TimedHeartbeatThread Addr) where
  coherent := PZGHeartbeatThreadState.coherent_initialized
  latencies := by simp [initialized]

omit [IPAddressAndPort Addr] in
/-- A source that expires takes the latency of its peer with it, if it is the
last one. -/
theorem Consistent.latenciesWithout (h : Consistent st)
    (hp : p ∈ st.latenciesWithout source) :
    p ∈ (st.thread.expireSource source).peerIDToIPAddresses := by
  cases hstate : st.thread.onlineSources.lookup source with
  | none =>
      have hsame : st.thread.expireSource source = st.thread := by
        simp [PZGHeartbeatThreadState.expireSource, hstate]
      simp only [TimedHeartbeatThread.latenciesWithout, hstate] at hp
      rw [hsame]
      exact h.latencies hp
  | some state =>
      have hin : source ∈ st.thread.onlineSources :=
        AList.lookup_isSome.mp (by rw [hstate]; rfl)
      have hmem : source.peerID ∈ st.thread.peerIDToIPAddresses :=
        h.coherent.mem_iff.mpr ⟨_, hin⟩
      have haddress := h.coherent.addresses.mpr hin
      simp only [TimedHeartbeatThread.latenciesWithout, hstate] at hp
      rw [(h.coherent.accepted hstate).1,
        PZGHeartbeatThreadState.lookup_eq_addressesOf hmem] at hp
      dsimp only at hp
      rw [← AList.lookup_isSome, h.coherent.lookup_expireSource hstate]
      by_cases hlast : (st.thread.addressesOf source.peerID).erase
          source.ipAddressAndPort = []
      · rw [if_pos ⟨haddress, List.isEmpty_iff.mpr hlast⟩, AList.mem_erase] at hp
        rw [if_neg hp.1, AList.lookup_isSome]
        exact h.latencies hp.2
      · rw [if_neg (fun hempty => hlast (List.isEmpty_iff.mp hempty.2))] at hp
        split
        · next heq =>
          rw [heq, if_neg hlast]
          rfl
        · rw [AList.lookup_isSome]
          exact h.latencies hp

omit [IPAddressAndPort Addr] in
theorem Consistent.expireSource (h : Consistent st) :
    Consistent (st.expireSource source) where
  coherent := h.coherent.expireSource
  latencies := h.latenciesWithout

omit [IPAddressAndPort Addr] in
theorem Consistent.pulseExpire (h : Consistent st) :
    Consistent st.pulseExpire := by
  unfold TimedHeartbeatThread.pulseExpire
  generalize st.thread.onlineSources.entries = sources
  induction sources generalizing st with
  | nil => exact h
  | cons source sources ih =>
      rw [List.foldl_cons]
      split
      · exact ih h.expireSource
      · exact ih h

omit [IPAddressAndPort Addr] in
/-- A packet that is taken adds its peer, or lets another version of it
expire first. -/
theorem Consistent.latenciesAfter {newHB : PZGHeartbeatPacketWithMetaData}
    {newSource : PZGHeartbeatSourceState} (h : Consistent st)
    (hnew : newSource.hbPacket = newHB)
    (hp : p ∈ st.latenciesAfter source newHB) :
    p ∈ (st.thread.heartbeatReceived source newSource).peerIDToIPAddresses := by
  subst hnew
  unfold TimedHeartbeatThread.latenciesAfter at hp
  unfold PZGHeartbeatThreadState.heartbeatReceived
  cases hstate : st.thread.onlineSources.lookup source with
  | none =>
      simp only [hstate] at hp
      exact AList.mem_put.mpr (Or.inr (h.latencies hp))
  | some oldSource =>
      simp only [hstate] at hp
      dsimp only
      split at hp
      · next hsame =>
        rw [if_pos hsame]
        split <;> exact h.latencies hp
      · next hother =>
        rw [if_neg hother]
        exact AList.mem_put.mpr (Or.inr (h.latenciesWithout hp))

omit [IPAddressAndPort Addr] in
/-- The peers after a packet that is taken are those that its source leaves. -/
theorem peers_receiveMulticastTraffic {a : Addr} {t : ℕ}
    {newHB : HeartbeatWire.PZGHeartbeatPacket} (htakes : st.takes newHB = true) :
    ∃ newSource : PZGHeartbeatSourceState,
      newSource.hbPacket = newHB.withMetaData ∧
      (st.thread.receiveMulticastTraffic a newHB.withMetaData
        t).peerIDToIPAddresses =
      (st.thread.heartbeatReceived ⟨a, newHB.sourcePeerID⟩
        newSource).peerIDToIPAddresses := by
  obtain ⟨hversion, hkey⟩ :
      newHB.versionCode = st.thread.hbSettings.versionCode ∧
      newHB.systemKey = st.thread.hbSettings.systemKey := by
    simpa [takes] using htakes
  have hversion' : newHB.withMetaData.versionCode =
      st.thread.hbSettings.versionCode := hversion
  have hkey' : newHB.withMetaData.systemKey =
      st.thread.hbSettings.systemKey := hkey
  unfold PZGHeartbeatThreadState.receiveMulticastTraffic
  dsimp only
  rw [if_neg (not_not.mpr hversion'), if_neg (not_not.mpr hkey')]
  generalize (if newHB.withMetaData.sourcePeerID =
    st.thread.hbSettings.localPeerID then (⊤ : WithTop ℕ)
    else ((t + st.thread.heartbeatExpirationTimeMicros : ℕ) : WithTop ℕ)) = expiry
  refine ⟨⟨newHB.withMetaData, expiry⟩, rfl, ?_⟩
  split_ifs <;> rfl

omit [IPAddressAndPort Addr] in
/-- A packet that is not taken changes nothing. -/
theorem receiveMulticastTraffic_of_not_takes {a : Addr} {tag : UInt16} {t : ℕ}
    {newHB : HeartbeatWire.PZGHeartbeatPacket} (htakes : st.takes newHB = false) :
    st.receiveMulticastTraffic a tag newHB t = st := by
  have hthread : st.thread.receiveMulticastTraffic a newHB.withMetaData t =
      st.thread := by
    have hother :
        newHB.withMetaData.versionCode ≠ st.thread.hbSettings.versionCode ∨
        newHB.withMetaData.systemKey ≠ st.thread.hbSettings.systemKey := by
      by_contra hboth
      push Not at hboth
      have hsame : newHB.versionCode = st.thread.hbSettings.versionCode ∧
          newHB.systemKey = st.thread.hbSettings.systemKey := hboth
      have htaken : st.takes newHB = true := by simp [takes, hsame]
      rw [htakes] at htaken
      cases htaken
    unfold PZGHeartbeatThreadState.receiveMulticastTraffic
    dsimp only
    split
    · rfl
    · next hversion =>
      rw [if_pos (hother.resolve_left hversion)]
  simp only [receiveMulticastTraffic, htakes, hthread]
  rfl

omit [IPAddressAndPort Addr] in
theorem Consistent.receiveMulticastTraffic {a : Addr} {tag : UInt16}
    {newHB : HeartbeatWire.PZGHeartbeatPacket} {t : ℕ} (h : Consistent st) :
    Consistent (st.receiveMulticastTraffic a tag newHB t) where
  coherent := by
    rw [thread_receiveMulticastTraffic]
    exact h.coherent.receiveMulticastTraffic
  latencies := by
    intro p hp
    cases htakes : st.takes newHB with
    | true =>
        obtain ⟨newSource, hnew, hpeers⟩ := peers_receiveMulticastTraffic htakes
        rw [thread_receiveMulticastTraffic, hpeers]
        refine h.latenciesAfter hnew ?_
        simpa [TimedHeartbeatThread.receiveMulticastTraffic, htakes] using hp
    | false =>
        rw [receiveMulticastTraffic_of_not_takes htakes] at hp ⊢
        exact h.latencies hp

/-! ### Steps and runs -/

omit [IPAddressAndPort Addr] in
/-- The sources stay, and so do the latencies. -/
theorem Consistent.congr (h : Consistent st)
    (hcoherent : Coherent st'.thread)
    (hlatencies : st'.mainThreadLatencies = st.mainThreadLatencies)
    (hsources : st'.thread.onlineSources = st.thread.onlineSources) :
    Consistent st' where
  coherent := hcoherent
  latencies := by
    intro p hp
    rw [hcoherent.mem_iff, hsources, ← h.coherent.mem_iff]
    exact h.latencies (hlatencies ▸ hp)

omit [IPAddressAndPort Addr] in
/-- Every peer that is there may have a latency. -/
theorem Consistent.updateLatencies (h : Consistent st) :
    Consistent (st.updateLatencies average) where
  coherent := h.coherent
  latencies := by
    have hfold : ∀ {p} (entries : List (Σ _ : ZGPeerID, List Addr))
        (latencies : AList fun _ : ZGPeerID => UInt64),
        p ∈ entries.foldl (fun latencies e =>
          latencies.put e.1 (st.latencyOf average e.1 e.2)) latencies →
        p ∈ latencies ∨ p ∈ entries.keys := by
      intro p entries
      induction entries with
      | nil => exact fun _ => Or.inl
      | cons e entries ih =>
          intro latencies hp
          rcases ih _ hp with hput | hin
          · rcases AList.mem_put.mp hput with rfl | hold
            · exact Or.inr (by simp)
            · exact Or.inl hold
          · exact Or.inr (by simp [hin])
    intro p hp
    rcases hfold _ _ hp with hold | hin
    · exact h.latencies hold
    · exact hin

theorem Consistent.pulseSend (average : ZGTimeAverager → UInt64)
    (dests : List Addr) (h : Consistent st) :
    Consistent (st.pulseSend average dests) := by
  unfold TimedHeartbeatThread.pulseSend
  split
  · have hsame := sameTables_sendHeartbeatPackets { st with
      thread := { st.thread with
        nextSendHeartbeatTime :=
          st.thread.now + st.thread.heartbeatPingInterval } } dests
    refine Consistent.updateLatencies (h.congr ?_ hsame.latencies ?_)
    all_goals
      rw [hsame.thread]
      unfold afterSending
      dsimp only
      split
    · exact Coherent.calculateOrderedPeersList
        (h.coherent.congr rfl rfl fun _ => rfl)
    · exact h.coherent.congr rfl rfl fun _ => rfl
    · exact PZGHeartbeatThreadState.lookup_calculateOrderedPeersList.2.1
    · rfl
  · exact h

theorem onlineSources_pulseOfficialPeersList {s : PZGHeartbeatThreadState Addr} :
    s.pulseOfficialPeersList.1.onlineSources = s.onlineSources := by
  unfold PZGHeartbeatThreadState.pulseOfficialPeersList
    PZGHeartbeatThreadState.updateOfficialPeersList
  split
  · dsimp only
    split <;>
      exact PZGHeartbeatThreadState.lookup_calculateOrderedPeersList.2.1
  · rfl

theorem Consistent.pulse {dests : List Addr} (h : Consistent st) :
    Consistent (st.pulse average dests) := by
  have hlist : Consistent { st with
      thread := { st.thread.pulseOfficialPeersList.1 with
        updateToNetworkTimeOffsetPending := false } } :=
    h.congr (h.coherent.pulseOfficialPeersList.congr rfl rfl fun _ => rfl) rfl
      onlineSources_pulseOfficialPeersList
  have hexpired := (hlist.pulseSend average dests).pulseExpire
  have hattach : ∀ {s : PZGHeartbeatThreadState Addr}, Coherent s →
      Coherent s.pulseAttach ∧ s.pulseAttach.onlineSources = s.onlineSources := by
    intro s hs
    unfold PZGHeartbeatThreadState.pulseAttach
    split
    · exact ⟨hs.congr rfl rfl fun _ => rfl, rfl⟩
    · exact ⟨hs, rfl⟩
  exact hexpired.congr (hattach hexpired.coherent).1 rfl
    (hattach hexpired.coherent).2

/-- **One event.** -/
theorem Consistent.step (h : Consistent st) (e : Event Addr) :
    Consistent (st.step average e) := by
  cases e with
  | awoke elapsedMicros dests =>
      have hlater : Consistent { st with
          thread := { st.thread with now := st.thread.now + elapsedMicros } } :=
        h.congr (h.coherent.congr rfl rfl fun _ => rfl) rfl rfl
      simp only [TimedHeartbeatThread.step, wake]
      split
      · exact hlater.pulse
      · exact hlater
  | received sourceIAP sourceTag newHB localReceiveTimeMicros =>
      exact h.receiveMulticastTraffic

/-- **The tables.** After any run, an address and a peer are a source exactly
when the address is once in the queue of the peer; no queue is empty; the
packet of a source is the one of its peer; and only peers that are there have
a latency. -/
theorem sources_consistent (average : ZGTimeAverager → UInt64)
    (hbSettings : PZGHeartbeatSettings) (startTime : ℕ) (id : UInt32)
    (es : List (Event Addr)) :
    let st := Runs.run (step average) (initialized hbSettings startTime id) es
    (∀ a p, (⟨a, p⟩ : PZGHeartbeatSourceKey Addr) ∈ st.thread.onlineSources ↔
      ∃ q, st.thread.peerIDToIPAddresses.lookup p = some q ∧ q.count a = 1) ∧
    (∀ p q, st.thread.peerIDToIPAddresses.lookup p = some q → q ≠ []) ∧
    (∀ source state, st.thread.onlineSources.lookup source = some state →
      state.hbPacket.sourcePeerID = source.peerID) ∧
    ∀ p, p ∈ st.mainThreadLatencies → p ∈ st.thread.peerIDToIPAddresses := by
  intro st
  have h : Consistent st :=
    Runs.run_invariant consistent_initialized fun _ e h => h.step e
  have hqueue : ∀ {p q}, st.thread.peerIDToIPAddresses.lookup p = some q →
      q = st.thread.addressesOf p := by
    intro p q hq
    rw [addressesOf, hq]
    rfl
  refine ⟨?_, ?_, ?_, fun p => h.latencies⟩
  · intro a p
    constructor
    · intro hin
      have hp : p ∈ st.thread.peerIDToIPAddresses :=
        h.coherent.mem_iff.mpr ⟨a, hin⟩
      exact ⟨_, PZGHeartbeatThreadState.lookup_eq_addressesOf hp,
        List.count_eq_one_of_mem (h.coherent.nodup p)
          (h.coherent.addresses.mpr hin)⟩
    · rintro ⟨q, hq, hcount⟩
      have hmem : a ∈ q := List.count_pos_iff.mp (by omega)
      exact h.coherent.addresses.mp (hqueue hq ▸ hmem)
  · intro p q hq
    rw [hqueue hq]
    exact h.coherent.nonempty.mp (AList.lookup_isSome.mp (by rw [hq]; rfl))
  · intro source state hstate
    exact (h.coherent.accepted hstate).1

end TimedHeartbeatThread

end ZgChoir
