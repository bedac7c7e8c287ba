import ZgChoir.ClockSamples

/-!
# What the heartbeats tell of the clocks

A heartbeat that comes in was sent, and an entry in it answers a heartbeat of
ours: the dwell time is how long the other peer has had it.  A measurement is
then what the two heartbeats have been under way, together, whatever the two
clocks say; and so is every average of them.

This holds as long as a heartbeat comes in at least `lo` microseconds after it
was written and at most `hi` after its sender woke up for it, no clock has run
over, and no peer has sent so many heartbeats that their IDs come again.
-/

namespace ZgChoir.ClockSystem

open HeartbeatWire (PZGTimingInfo)
open PZGHeartbeatThreadState (SameClock)
open TimedHeartbeatThread (AnswersPacket MeasuredEntry NoNewTimings
  dwellTimeMicros)

variable {Addr : Type} [DecidableEq Addr]

/-- A heartbeat may come in at this time. -/
def ArrivesAt (lo hi : ℕ) (hb : SentHeartbeat) (time : ℕ) : Prop :=
  hb.writtenAt + lo ≤ time ∧ time ≤ hb.wokeAt + hi

instance (lo hi : ℕ) (hb : SentHeartbeat) (time : ℕ) :
    Decidable (ArrivesAt lo hi hb time) :=
  inferInstanceAs (Decidable (_ ∧ _))

/-- Heartbeats come in on time, the clocks do not run over, and the IDs do
not come again. -/
def Timely (lo hi : ℕ) (s : ClockSystem Addr) : Event Addr → Prop
  | .timePasses micros => s.time + micros < 2 ^ 61
  | .starts _ => True
  | .awakes p dests =>
      (∀ dest ∈ dests, s.time + dest.2 < 2 ^ 61) ∧
      ∀ st ∈ s.peers p, ∀ hb ∈ s.sent, hb.sender = p →
        hb.packet.heartbeatPacketID ≠
          st.timed.outgoingHeartbeatPacketIDCounter + 1
  | .receives _ _ k => ∀ hb ∈ s.sent[k]?, ArrivesAt lo hi hb s.time

instance (lo hi : ℕ) (s : ClockSystem Addr) :
    ∀ e : Event Addr, Decidable (Timely lo hi s e)
  | .timePasses _ => inferInstanceAs (Decidable (_ < _))
  | .starts _ => inferInstanceAs (Decidable True)
  | .awakes p dests => inferInstanceAs (Decidable ((∀ dest ∈ dests, _) ∧
      ∀ st ∈ s.peers p, ∀ hb ∈ s.sent, _ → _))
  | .receives _ _ k => inferInstanceAs (Decidable (∀ hb ∈ s.sent[k]?, _))

/-! ### The invariant -/

/-- An entry about `p` in a heartbeat whose sender woke up at `wokeAt`: the
heartbeat that it answers came in the dwell time before. -/
def Answers (lo hi : ℕ) (sent : List SentHeartbeat) (p : ZGPeerID)
    (wokeAt : ℕ) (ti : PZGTimingInfo) : Prop :=
  ti.dwellTimeMicros ≠ muscleNoLimit →
    ∃ hb ∈ sent, hb.sender = p ∧
      hb.packet.heartbeatPacketID = ti.heartbeatPacketID ∧
      ∃ r, ArrivesAt lo hi hb r ∧ r + ti.dwellTimeMicros.toNat = wokeAt

/-- What a heartbeat says is so. -/
structure Honest (env : ClockEnvironment Addr) (lo hi : ℕ)
    (s : ClockSystem Addr) (hb : SentHeartbeat) : Prop where
  sourcePeerID : hb.packet.sourcePeerID = hb.sender
  wokeAt : hb.wokeAt ≤ s.time ∧ hb.wokeAt ≤ hb.writtenAt
  writtenAt : hb.writtenAt < 2 ^ 61
  networkTime : hb.packet.networkSendTimeMicros =
    getNetworkTime64ForRunTime64 hb.offset
      (.ofNat (env.clock hb.sender hb.writtenAt))
  answers : ∀ info ∈ hb.packet.orderedPeersList, ∀ ti ∈ info.timings,
    Answers lo hi s.sent info.peerID hb.wokeAt ti

/-- The heartbeat that a timing is of. -/
structure HeardFrom (env : ClockEnvironment Addr) (lo hi : ℕ)
    (s : ClockSystem Addr) (p : ZGPeerID) (st : SyncedThread Addr)
    (source : PZGHeartbeatSourceKey Addr) (t : SourceTiming Addr)
    (hb : SentHeartbeat) : Prop where
  sent : hb ∈ s.sent
  sender : hb.sender = source.peerID
  packetID : hb.packet.heartbeatPacketID = t.heartbeatPacketID
  networkTime : st.networkSendTimes.get? source =
    some hb.packet.networkSendTimeMicros
  received : ∃ r ≤ s.time, t.localReceiveTimeMicros = env.clock p r ∧
    ArrivesAt lo hi hb r

/-- What a peer knows is so. -/
structure Informed (env : ClockEnvironment Addr) (lo hi : ℕ)
    (s : ClockSystem Addr) (p : ZGPeerID) (st : SyncedThread Addr) :
    Prop where
  now : st.timed.thread.now ≤ env.clock p s.time
  hbSettings : st.timed.thread.hbSettings = env.hbSettings p
  sendTimes : ∀ id t,
    st.timed.recentlySentHeartbeatLocalSendTimes.get? id = some t →
    ∀ hb ∈ s.sent, hb.sender = p → hb.packet.heartbeatPacketID = id →
      t = .ofNat (env.clock p hb.wokeAt)
  heard : ∀ source t, st.timed.timings.get? source = some t →
    ∃ hb, HeardFrom env lo hi s p st source t hb
  averagers : ∀ source t, st.timed.timings.get? source = some t →
    ∀ e ∈ t.rttAveragers.entries,
      ZGTimeAverager.Within (2 * lo) (2 * hi) e.2

/-- **The invariant.** -/
structure Keeps (env : ClockEnvironment Addr) (lo hi : ℕ)
    (s : ClockSystem Addr) : Prop where
  time : s.time < 2 ^ 61
  honest : ∀ hb ∈ s.sent, Honest env lo hi s hb
  informed : ∀ p st, s.peers p = some st → Informed env lo hi s p st

variable {env : ClockEnvironment Addr} {lo hi : ℕ} {s s' : ClockSystem Addr}
  {p : ZGPeerID} {st : SyncedThread Addr}

omit [DecidableEq Addr] in
theorem clock_lt (env : ClockEnvironment Addr) (p : ZGPeerID) {time : ℕ}
    (h : time < 2 ^ 61) : env.clock p time < 2 ^ 62 := by
  have := env.clockAhead_lt p
  unfold ClockEnvironment.clock
  omega

omit [DecidableEq Addr] in
theorem toNat_clock (env : ClockEnvironment Addr) (p : ZGPeerID)
    (time : ℕ) (h : time < 2 ^ 61) :
    (UInt64.ofNat (env.clock p time)).toNat = env.clock p time :=
  toNat_ofNat_runTime (clock_lt env p h)

/-! ### More heartbeats -/

/-- Time may have passed, and more heartbeats may have been sent. -/
structure Later (s s' : ClockSystem Addr) : Prop where
  time : s.time ≤ s'.time
  sent : s.sent ⊆ s'.sent

omit [DecidableEq Addr] in
/-- The heartbeats and the time are the same. -/
theorem Later.of_eq {peers : ZGPeerID → Option (SyncedThread Addr)} :
    Later s { s with peers } := ⟨le_rfl, fun _ h => h⟩

omit [DecidableEq Addr] in
theorem Answers.mono {sent sent' : List SentHeartbeat} {wokeAt : ℕ}
    {ti : PZGTimingInfo} (hsub : sent ⊆ sent')
    (h : Answers lo hi sent p wokeAt ti) :
    Answers lo hi sent' p wokeAt ti := by
  intro hdwell
  obtain ⟨hb, hmem, hrest⟩ := h hdwell
  exact ⟨hb, hsub hmem, hrest⟩

omit [DecidableEq Addr] in
theorem Honest.mono {hb : SentHeartbeat} (h : Honest env lo hi s hb)
    (hlater : Later s s') : Honest env lo hi s' hb where
  sourcePeerID := h.sourcePeerID
  wokeAt := ⟨h.wokeAt.1.trans hlater.time, h.wokeAt.2⟩
  writtenAt := h.writtenAt
  networkTime := h.networkTime
  answers info hinfo ti hti := (h.answers info hinfo ti hti).mono hlater.sent

theorem HeardFrom.mono {source : PZGHeartbeatSourceKey Addr}
    {t t' : SourceTiming Addr} {hb : SentHeartbeat} {st' : SyncedThread Addr}
    (h : HeardFrom env lo hi s p st source t hb) (hlater : Later s s')
    (hnet : st'.networkSendTimes.get? source =
      st.networkSendTimes.get? source)
    (hleft : TimedHeartbeatThread.LeftOf t t') :
    HeardFrom env lo hi s' p st' source t' hb := by
  obtain ⟨r, hr, hreceived, harrives⟩ := h.received
  exact ⟨hlater.sent h.sent, h.sender,
    h.packetID.trans hleft.packetID.symm, hnet.trans h.networkTime,
    r, hr.trans hlater.time, hleft.received.trans hreceived, harrives⟩

/-- Time passes for a peer, and others send heartbeats. -/
theorem Informed.elsewhere (h : Informed env lo hi s p st)
    (hlater : Later s s')
    (hothers : ∀ hb ∈ s'.sent, hb.sender = p → hb ∈ s.sent) :
    Informed env lo hi s' p st where
  now := h.now.trans (Nat.add_le_add_right hlater.time _)
  hbSettings := h.hbSettings
  sendTimes id t ht hb hmem hp := h.sendTimes id t ht hb (hothers hb hmem hp) hp
  heard source t ht := by
    obtain ⟨hb, hhb⟩ := h.heard source t ht
    exact ⟨hb, hhb.mono hlater rfl (.refl t)⟩
  averagers := h.averagers

/-! ### A heartbeat comes in -/

omit [DecidableEq Addr] in
/-- The entry that is measured. -/
theorem measuredEntry_parts [DecidableEq Addr]
    {timed : TimedHeartbeatThread Addr} {sourceIAP : Addr}
    {newHB : HeartbeatWire.PZGHeartbeatPacket} {e : MeasuredEntry Addr}
    (h : timed.measuredEntry sourceIAP newHB = some e) :
    ∃ info ∈ newHB.orderedPeersList,
      info.peerID = timed.thread.hbSettings.localPeerID ∧
      e.timing ∈ info.timings ∧
      e.timing.dwellTimeMicros ≠ muscleNoLimit ∧
      timed.recentlySentHeartbeatLocalSendTimes.get?
        e.timing.heartbeatPacketID = some e.packetLocalSendTime := by
  unfold TimedHeartbeatThread.measuredEntry at h
  split at h
  · cases hentry : TimedHeartbeatThread.timingEntry
        timed.thread.hbSettings.localPeerID timed.heartbeatSourceTagToDest
        newHB.orderedPeersList with
    | none =>
        rw [hentry] at h
        cases h
    | some entry =>
        obtain ⟨multicastAddr, timing⟩ := entry
        rw [hentry] at h
        dsimp only at h
        cases hsent : TimedHeartbeatThread.sendTimeOf
            timed.recentlySentHeartbeatLocalSendTimes timing with
        | none =>
            rw [hsent] at h
            cases h
        | some packetLocalSendTime =>
            rw [hsent] at h
            dsimp only at h
            split at h
            · obtain rfl := Option.some.inj h
              unfold TimedHeartbeatThread.timingEntry at hentry
              cases hfind : newHB.orderedPeersList.find? fun info =>
                  info.peerID == timed.thread.hbSettings.localPeerID with
              | none =>
                  rw [hfind] at hentry
                  cases hentry
              | some info =>
                  rw [hfind] at hentry
                  obtain ⟨ti, hti, hmap⟩ := List.exists_of_findSome?_eq_some
                    hentry
                  obtain ⟨a, -, heq⟩ := Option.map_eq_some_iff.mp hmap
                  obtain ⟨-, rfl⟩ := Prod.mk.inj heq
                  unfold TimedHeartbeatThread.sendTimeOf at hsent
                  split at hsent
                  · cases hsent
                  · next hdwell =>
                    exact ⟨info, List.mem_of_find?_eq_some hfind,
                      by simpa using List.find?_some hfind, hti, hdwell,
                      hsent⟩
            · cases h
  · cases h

/-- **A measurement** is the time that two heartbeats were under way. -/
theorem measured_within (hkeeps : Keeps env lo hi s)
    (h : Informed env lo hi s p st) {hb : SentHeartbeat} (hmem : hb ∈ s.sent)
    (harrives : ArrivesAt lo hi hb s.time) {sourceIAP : Addr}
    {m : TimedHeartbeatThread.Measurement Addr}
    (hm : st.timed.measured sourceIAP hb.packet
      (.ofNat (env.clock p s.time)) = some m) :
    2 * lo ≤ m.newMeasurementMicros.toNat ∧
      m.newMeasurementMicros.toNat ≤ 2 * hi := by
  obtain ⟨e, he, rfl⟩ := Option.map_eq_some_iff.mp hm
  obtain ⟨info, hinfo, hpeer, hti, hdwell, hsent⟩ := measuredEntry_parts he
  have hhonest := hkeeps.honest hb hmem
  obtain ⟨g, hg, hsender, hid, r, hr, hwoke⟩ :=
    hhonest.answers info hinfo e.timing hti hdwell
  rw [hpeer, h.hbSettings, env.localPeerID_hbSettings] at hsender
  have hsendTime := h.sendTimes _ _ hsent g hg hsender hid
  obtain ⟨hwokeG, hwrittenG⟩ := (hkeeps.honest g hg).wokeAt
  obtain ⟨hwokeH, hwrittenH⟩ := hhonest.wokeAt
  have htime := hkeeps.time
  have hclock := toNat_clock env p s.time htime
  have hclockG := toNat_clock env p g.wokeAt (by omega)
  have hdwellNat : e.timing.dwellTimeMicros.toUInt64.toNat =
      e.timing.dwellTimeMicros.toNat := UInt32.toNat_toUInt64 _
  have hahead := env.clockAhead_lt p
  obtain ⟨hrlow, hrhigh⟩ := hr
  obtain ⟨hlow, hhigh⟩ := harrives
  have hmeasured : (e.measurement (.ofNat (env.clock p
      s.time))).newMeasurementMicros.toNat =
      s.time - (g.wokeAt + e.timing.dwellTimeMicros.toNat) := by
    unfold TimedHeartbeatThread.MeasuredEntry.measurement
    dsimp only
    rw [hsendTime, UInt64.toNat_sub, UInt64.toNat_add, hclock, hclockG,
      hdwellNat]
    unfold ClockEnvironment.clock
    omega
  rw [hmeasured]
  omega

/-- **A heartbeat comes in.** -/
theorem Informed.receives (hhi : hi < 2 ^ 28) (hkeeps : Keeps env lo hi s)
    (h : Informed env lo hi s p st) {hb : SentHeartbeat} (hmem : hb ∈ s.sent)
    (harrives : ArrivesAt lo hi hb s.time) (sourceIAP : Addr) :
    Informed env lo hi s p (st.receiveMulticastTraffic sourceIAP hb.sourceTag
      hb.packet (env.clock p s.time)) := by
  have hthread : SameClock st.timed.thread (st.receiveMulticastTraffic
      sourceIAP hb.sourceTag hb.packet (env.clock p s.time)).timed.thread := by
    unfold SyncedThread.receiveMulticastTraffic
    rw [TimedHeartbeatThread.thread_receiveMulticastTraffic]
    exact PZGHeartbeatThreadState.sameClock_receiveMulticastTraffic
  by_cases htakes : st.timed.takes hb.packet = true
  · have htimings : (st.receiveMulticastTraffic sourceIAP hb.sourceTag
        hb.packet (env.clock p s.time)).timed.timings =
        st.timed.timings.put ⟨sourceIAP, hb.packet.sourcePeerID⟩
          (st.timed.timingAfter ⟨sourceIAP, hb.packet.sourcePeerID⟩
            hb.sourceTag hb.packet.withMetaData (env.clock p s.time)
            (st.timed.measured sourceIAP hb.packet
              (.ofNat (env.clock p s.time)))) := by
      simp [SyncedThread.receiveMulticastTraffic,
        TimedHeartbeatThread.receiveMulticastTraffic, htakes]
    have hnet : (st.receiveMulticastTraffic sourceIAP hb.sourceTag
        hb.packet (env.clock p s.time)).networkSendTimes =
        st.networkSendTimes.put ⟨sourceIAP, hb.packet.sourcePeerID⟩
          hb.packet.networkSendTimeMicros := by
      simp [SyncedThread.receiveMulticastTraffic, htakes]
    have htimes : (st.receiveMulticastTraffic sourceIAP hb.sourceTag hb.packet
        (env.clock p s.time)).timed.recentlySentHeartbeatLocalSendTimes =
        st.timed.recentlySentHeartbeatLocalSendTimes := by
      simp [SyncedThread.receiveMulticastTraffic,
        TimedHeartbeatThread.receiveMulticastTraffic, htakes]
    obtain ⟨hid, hreceived, haveragers⟩ :=
      TimedHeartbeatThread.spec_timingAfter st.timed
        ⟨sourceIAP, hb.packet.sourcePeerID⟩ hb.sourceTag
        hb.packet.withMetaData (env.clock p s.time)
        (st.timed.measured sourceIAP hb.packet
          (.ofNat (env.clock p s.time)))
    refine ⟨by rw [hthread.now]; exact h.now,
      by rw [hthread.hbSettings]; exact h.hbSettings, ?_, ?_, ?_⟩
    · rw [htimes]
      exact h.sendTimes
    · intro source t ht
      rw [htimings, Hashtable.get?_put] at ht
      by_cases hsource : source = ⟨sourceIAP, hb.packet.sourcePeerID⟩
      · rw [if_pos hsource] at ht
        obtain rfl := Option.some.inj ht
        have hsender := (hkeeps.honest hb hmem).sourcePeerID
        refine ⟨hb, hmem, ?_, hid.symm, ?_, s.time, le_rfl, hreceived,
          harrives⟩
        · rw [hsource, hsender]
        · rw [hnet, hsource, Hashtable.get?_put_self]
      · rw [if_neg hsource] at ht
        obtain ⟨g, hg⟩ := h.heard source t ht
        refine ⟨g, hg.mono .of_eq ?_ (.refl t)⟩
        rw [hnet, Hashtable.get?_put_of_ne hsource]
    · intro source t ht e he
      rw [htimings, Hashtable.get?_put] at ht
      by_cases hsource : source = ⟨sourceIAP, hb.packet.sourcePeerID⟩
      · rw [if_pos hsource] at ht
        obtain rfl := Option.some.inj ht
        obtain ⟨t, ht, hold | ⟨m, hm, hnew⟩⟩ := haveragers e he
        · exact h.averagers _ t ht e hold
        · obtain ⟨hlow, hhigh⟩ := measured_within hkeeps h hmem harrives hm
          rw [hnew]
          refine ZGTimeAverager.within_addMeasurement (by omega) ?_ hlow hhigh
          cases hget : t.rttAveragers.get? m.multicastAddr with
          | none => exact .inl rfl
          | some a => exact .inr (h.averagers _ t ht _
              (Hashtable.get?_eq_some_iff.mp hget))
      · rw [if_neg hsource] at ht
        exact h.averagers source t ht e he
  · have hsame : st.receiveMulticastTraffic sourceIAP hb.sourceTag hb.packet
        (env.clock p s.time) = { st with timed := { st.timed with
          thread := (st.receiveMulticastTraffic sourceIAP hb.sourceTag
            hb.packet (env.clock p s.time)).timed.thread } } := by
      simp [SyncedThread.receiveMulticastTraffic,
        TimedHeartbeatThread.receiveMulticastTraffic, htakes]
    rw [hsame]
    refine ⟨?_, ?_, h.sendTimes, fun source t ht => ?_, h.averagers⟩
    · exact hthread.now.le.trans h.now
    · exact hthread.hbSettings.trans h.hbSettings
    · obtain ⟨g, hg⟩ := h.heard source t ht
      have hnet : st.networkSendTimes.get? source =
          st.networkSendTimes.get? source := rfl
      exact ⟨g, hg.mono .of_eq hnet (.refl t)⟩

/-! ### A peer takes its turn -/

theorem spec_getPreferredAverageValue (env : ClockEnvironment Addr)
    (after : UInt64) (t : SourceTiming Addr) :
    TimedHeartbeatThread.LeftOf t
        (SyncedThread.getPreferredAverageValue env after t).2 ∧
      ((SyncedThread.getPreferredAverageValue env after t).1 = 0 ∨
        ∃ e ∈ t.rttAveragers.entries,
          (SyncedThread.getPreferredAverageValue env after t).1 =
            e.2.getAverageValueIgnoringOutliersAux) := by
  unfold SyncedThread.getPreferredAverageValue
  cases hfind : t.rttAveragers.entries.find? fun e =>
      decide (after ≤ .ofNat e.2.lastMeasurementTime) with
  | none => exact ⟨.refl t, .inl rfl⟩
  | some e =>
      obtain ⟨a, rtt⟩ := e
      refine ⟨?_, .inr ⟨(a, rtt), List.mem_of_find?_eq_some hfind, rfl⟩⟩
      dsimp only
      split
      · exact .refl t
      · exact ⟨rfl, rfl, fun e he => (env.perm_movedToBack a _).mem_iff.mp he⟩

theorem seniorHeartbeat_parts {official : PZGHeartbeatThreadState Addr}
    {source : PZGHeartbeatSourceKey Addr} {t : SourceTiming Addr}
    {seniorNetTime : UInt64}
    (h : st.seniorHeartbeat official = some (source, t, seniorNetTime)) :
    source.peerID = official.getSeniorPeerID ∧
      st.timed.timings.get? source = some t ∧
      st.networkSendTimes.get? source = some seniorNetTime := by
  unfold SyncedThread.seniorHeartbeat at h
  cases hq : official.peerIDToIPAddresses.lookup official.getSeniorPeerID with
  | none =>
      rw [hq] at h
      cases h
  | some q =>
      rw [hq] at h
      cases q with
      | nil => cases h
      | cons head _ =>
          dsimp only at h
          cases ht : st.timed.timings.get?
              ⟨head, official.getSeniorPeerID⟩ with
          | none =>
              rw [ht] at h
              cases h
          | some t' =>
              cases hn : st.networkSendTimes.get?
                  ⟨head, official.getSeniorPeerID⟩ with
              | none =>
                  rw [ht, hn] at h
                  cases h
              | some n =>
                  rw [ht, hn] at h
                  cases h
                  exact ⟨rfl, ht, hn⟩

/-- Only the offset is new, and the averagers of the senior may have changed
places. -/
structure OffsetOnly (st st' : SyncedThread Addr) : Prop where
  noNew : NoNewTimings st.timed st'.timed
  thread : st'.timed.thread = st.timed.thread
  counter : st'.timed.outgoingHeartbeatPacketIDCounter =
    st.timed.outgoingHeartbeatPacketIDCounter
  sendTimes : st'.timed.recentlySentHeartbeatLocalSendTimes =
    st.timed.recentlySentHeartbeatLocalSendTimes
  networkSendTimes : st'.networkSendTimes = st.networkSendTimes
  latencies : st'.timed.mainThreadLatencies = st.timed.mainThreadLatencies

theorem offsetOnly_updateToNetworkTimeOffset
    (official : PZGHeartbeatThreadState Addr) (st : SyncedThread Addr) :
    OffsetOnly st (st.updateToNetworkTimeOffset env official) := by
  unfold SyncedThread.updateToNetworkTimeOffset
  split
  · split
    · exact ⟨.refl _, rfl, rfl, rfl, rfl, rfl⟩
    · cases hsenior : st.seniorHeartbeat official with
      | none => exact ⟨.refl _, rfl, rfl, rfl, rfl, rfl⟩
      | some hb =>
          obtain ⟨source, t, seniorNetTime⟩ := hb
          obtain ⟨-, ht, -⟩ := seniorHeartbeat_parts hsenior
          exact ⟨TimedHeartbeatThread.noNewTimings_put ht
            (spec_getPreferredAverageValue env _ t).1, rfl, rfl, rfl, rfl, rfl⟩
  · exact ⟨.refl _, rfl, rfl, rfl, rfl, rfl⟩

variable [IPAddressAndPort Addr]

theorem offsetOnly_pulseOffset (env : ClockEnvironment Addr)
    (st : SyncedThread Addr) : OffsetOnly st (st.pulseOffset env) := by
  unfold SyncedThread.pulseOffset
  split
  · exact offsetOnly_updateToNetworkTimeOffset _ st
  · exact ⟨.refl _, rfl, rfl, rfl, rfl, rfl⟩

/-- A turn of a thread whose clock reads `now`, and the packet that it
sends. -/
structure Turn (env : ClockEnvironment Addr) (now : ℕ)
    (st : SyncedThread Addr)
    (r : SyncedThread Addr × Option HeartbeatWire.PZGHeartbeatPacket) :
    Prop where
  noNew : NoNewTimings st.timed r.1.timed
  clock : r.1.timed.thread.now = now
  hbSettings : r.1.timed.thread.hbSettings = st.timed.thread.hbSettings
  networkSendTimes : r.1.networkSendTimes = st.networkSendTimes
  sendTimes : r.1.timed.recentlySentHeartbeatLocalSendTimes =
    if r.2.isSome then
      TimedHeartbeatThread.rememberSendTime
        st.timed.recentlySentHeartbeatLocalSendTimes
        (st.timed.outgoingHeartbeatPacketIDCounter + 1) (.ofNat now)
    else st.timed.recentlySentHeartbeatLocalSendTimes
  packetID : ∀ packet ∈ r.2, packet.heartbeatPacketID =
    st.timed.outgoingHeartbeatPacketIDCounter + 1
  sourcePeerID : ∀ packet ∈ r.2, packet.sourcePeerID =
    st.timed.thread.hbSettings.localPeerID
  answers : ∀ packet ∈ r.2, ∀ info ∈ packet.orderedPeersList,
    ∀ ti ∈ info.timings, AnswersPacket
      { st.timed with thread := { st.timed.thread with now := now } }
      info.peerID ti

theorem turn_pulse (env : ClockEnvironment Addr) (p : ZGPeerID)
    (dests : List Addr) (st : SyncedThread Addr) :
    Turn env st.timed.thread.now st (st.pulse env p dests) := by
  obtain ⟨hnoNew, hthread, hcounter, htimes, hnet, -⟩ :=
    offsetOnly_pulseOffset env st
  have hclock := PZGHeartbeatThreadState.sameClock_pulse
    (st.pulseOffset env).timed.thread (!dests.isEmpty)
  have hofficial := (PZGHeartbeatThreadState.sameClock_pulseOfficialPeersList
    (st.pulseOffset env).timed.thread).1
  unfold SyncedThread.pulse
  dsimp only
  refine ⟨hnoNew.trans TimedHeartbeatThread.noNewTimings_pulse, ?_, ?_, hnet,
    ?_, ?_, ?_, ?_⟩
  · rw [TimedHeartbeatThread.thread_pulse, hclock.now, hthread]
  · rw [TimedHeartbeatThread.thread_pulse, hclock.hbSettings, hthread]
  · rw [TimedHeartbeatThread.sendTimes_pulse, htimes, hcounter, hthread]
    unfold SyncedThread.sends
    rw [hthread]
    by_cases hdue : st.timed.thread.nextSendHeartbeatTime ≤
        st.timed.thread.now
    · cases hnone : dests.isEmpty with
      | true => simp [hdue]
      | false => simp [hdue]
    · simp [hdue]
  · intro packet hpacket
    obtain ⟨-, rfl⟩ := Option.ite_some_none_eq_some.mp hpacket
    unfold SyncedThread.heartbeatPacket SyncedThread.beforeSending
    dsimp only
    rw [hcounter]
  · intro packet hpacket
    obtain ⟨-, rfl⟩ := Option.ite_some_none_eq_some.mp hpacket
    unfold SyncedThread.heartbeatPacket SyncedThread.beforeSending
    dsimp only
    rw [hofficial.hbSettings, hthread]
  · intro packet hpacket info hinfo ti hti
    obtain ⟨-, rfl⟩ := Option.ite_some_none_eq_some.mp hpacket
    have hanswers := (TimedHeartbeatThread.saysOfAll_outgoingPeersList
      (SyncedThread.beforeSending
        (st.pulseOffset env).timed)).answers info hinfo ti hti
    refine AnswersPacket.before ?_ ?_ hanswers
    · exact hnoNew
    · change (st.pulseOffset env).timed.thread.pulseOfficialPeersList.1.now =
        st.timed.thread.now
      rw [hofficial.now, hthread]

/-- **A turn.** -/
theorem turn_wake (env : ClockEnvironment Addr) (p : ZGPeerID)
    (elapsedMicros : ℕ) (dests : List Addr) (st : SyncedThread Addr) :
    Turn env (st.timed.thread.now + elapsedMicros) st
      (st.wake env p elapsedMicros dests) := by
  unfold SyncedThread.wake
  dsimp only
  split
  · have hturn := turn_pulse env p dests
      (st.withNow (st.timed.thread.now + elapsedMicros))
    exact ⟨hturn.noNew, hturn.clock, hturn.hbSettings, hturn.networkSendTimes,
      hturn.sendTimes, hturn.packetID, hturn.sourcePeerID, hturn.answers⟩
  · exact ⟨.refl _, rfl, rfl, rfl, rfl, fun _ h => (nomatch h),
      fun _ h => (nomatch h), fun _ h => (nomatch h)⟩

/-! ### One event -/

/-- A heartbeat that is written in this turn. -/
structure WrittenNow (env : ClockEnvironment Addr) (s : ClockSystem Addr)
    (p : ZGPeerID) (st : SyncedThread Addr)
    (packet : HeartbeatWire.PZGHeartbeatPacket) (hb : SentHeartbeat) :
    Prop where
  sender : hb.sender = p
  offset : hb.offset = st.toNetworkTimeOffset
  wokeAt : hb.wokeAt = s.time
  writtenAt : s.time ≤ hb.writtenAt
  packet : hb.packet = { packet with
    networkSendTimeMicros := getNetworkTime64ForRunTime64
      st.toNetworkTimeOffset (.ofNat (env.clock p hb.writtenAt)) }

omit [IPAddressAndPort Addr] in
theorem of_mem_written {dests : List (Addr × ℕ)}
    {packet : HeartbeatWire.PZGHeartbeatPacket} {hb : SentHeartbeat}
    (h : hb ∈ s.written env p dests st packet) :
    WrittenNow env s p st packet hb ∧
      ∃ dest ∈ dests, hb.writtenAt = s.time + dest.2 := by
  obtain ⟨dest, hdest, hmap⟩ := List.mem_filterMap.mp h
  obtain ⟨tag, -, rfl⟩ := Option.map_eq_some_iff.mp hmap
  exact ⟨⟨rfl, rfl, rfl, Nat.le_add_right _ _, rfl⟩, dest, hdest, rfl⟩

/-- The dwell time that is told, unless it is unknown. -/
theorem toNat_dwellTimeMicros {now received : UInt64} (hle : received ≤ now)
    (hknown : dwellTimeMicros now received ≠ muscleNoLimit) :
    received.toNat + (dwellTimeMicros now received).toNat = now.toNat := by
  have hmin : dwellTimeMicros now received =
      (if now - received ≤ 0xffffffff then now - received
        else 0xffffffff).toUInt32 := rfl
  have hsub := UInt64.toNat_sub_of_le now received hle
  rw [UInt64.le_iff_toNat_le] at hle
  rw [hmin] at hknown ⊢
  by_cases hlong : now - received ≤ 0xffffffff
  · rw [if_pos hlong, UInt64.toNat_toUInt32]
    rw [UInt64.le_iff_toNat_le] at hlong
    have hmax : UInt64.toNat 0xffffffff = 2 ^ 32 - 1 := rfl
    omega
  · rw [if_neg hlong] at hknown
    exact absurd rfl hknown

omit [IPAddressAndPort Addr] in
/-- An answer to a packet that the peer has heard. -/
theorem Informed.answers (hkeeps : Keeps env lo hi s)
    (h : Informed env lo hi s p st) {q : ZGPeerID} {ti : PZGTimingInfo}
    (hti : AnswersPacket { st.timed with
      thread := { st.timed.thread with now := env.clock p s.time } } q ti) :
    Answers lo hi s.sent q s.time ti := by
  intro hknown
  obtain ⟨source, t, rfl, ht, hid, hdwell⟩ := hti
  obtain ⟨hb, hheard⟩ := h.heard source t ht
  obtain ⟨r, hr, hreceived, harrives⟩ := hheard.received
  have htime := hkeeps.time
  refine ⟨hb, hheard.sent, hheard.sender, hheard.packetID.trans hid.symm, r,
    harrives, ?_⟩
  have hnow := toNat_clock env p s.time htime
  have hthen := toNat_clock env p r (by omega)
  have hle : UInt64.ofNat (env.clock p r) ≤
      UInt64.ofNat (env.clock p s.time) := by
    rw [UInt64.le_iff_toNat_le, hnow, hthen]
    exact Nat.add_le_add_right hr _
  change ti.dwellTimeMicros = dwellTimeMicros
    (.ofNat (env.clock p s.time)) _ at hdwell
  rw [hdwell, hreceived] at hknown ⊢
  have hsum := toNat_dwellTimeMicros hle hknown
  rw [hnow, hthen] at hsum
  have hclock : env.clock p s.time = s.time + env.clockAhead p := rfl
  have hclock' : env.clock p r = r + env.clockAhead p := rfl
  omega

/-- The peer after its turn, and the heartbeats that it has written. -/
theorem Informed.awakes (h : Informed env lo hi s p st)
    {dests : List (Addr × ℕ)}
    (hfresh : ∀ hb ∈ s.sent, hb.sender = p →
      hb.packet.heartbeatPacketID ≠
        st.timed.outgoingHeartbeatPacketIDCounter + 1)
    {peers : ZGPeerID → Option (SyncedThread Addr)} :
    Informed env lo hi
      ⟨s.time, peers, s.sent ++ s.newHeartbeats env p dests st⟩ p
      (s.awoken env p (dests.map Prod.fst) st).1 := by
  have hturn := turn_wake env p (env.clock p s.time - st.timed.thread.now)
    (dests.map Prod.fst) st
  rw [Nat.add_sub_cancel' h.now] at hturn
  change Turn env _ st (s.awoken env p (dests.map Prod.fst) st) at hturn
  unfold newHeartbeats
  generalize s.awoken env p (dests.map Prod.fst) st = r at *
  refine ⟨hturn.clock.le, hturn.hbSettings.trans h.hbSettings, ?_, ?_, ?_⟩
  · intro id t ht hb hmem hp hid
    rw [hturn.sendTimes] at ht
    rcases List.mem_append.mp hmem with hmem | hmem
    · split at ht
      · rcases TimedHeartbeatThread.get?_rememberSendTime ht with
          ⟨hnew, -⟩ | ⟨-, hold⟩
        · exact absurd (hid.trans hnew) (hfresh hb hmem hp)
        · exact h.sendTimes id t hold hb hmem hp hid
      · exact h.sendTimes id t ht hb hmem hp hid
    · obtain ⟨packet, hpacket, hwritten⟩ := List.mem_flatMap.mp hmem
      have hpacket := Option.mem_toList.mp hpacket
      obtain ⟨hnow, -⟩ := of_mem_written hwritten
      have hsome : r.2.isSome = true := Option.isSome_of_mem hpacket
      rw [if_pos hsome] at ht
      rw [hnow.packet, hturn.packetID packet hpacket] at hid
      rcases TimedHeartbeatThread.get?_rememberSendTime ht with
        ⟨-, rfl⟩ | ⟨hne, -⟩
      · rw [hnow.wokeAt]
      · exact absurd hid.symm hne
  · intro source t' ht'
    obtain ⟨t, ht, hleft⟩ := hturn.noNew source t' ht'
    obtain ⟨hb, hheard⟩ := h.heard source t ht
    have hnet : r.1.networkSendTimes.get? source =
        st.networkSendTimes.get? source := by rw [hturn.networkSendTimes]
    exact ⟨hb, hheard.mono ⟨le_rfl, List.subset_append_left s.sent _⟩ hnet
      hleft⟩
  · intro source t' ht' e he
    obtain ⟨t, ht, hleft⟩ := hturn.noNew source t' ht'
    exact h.averagers source t ht e (hleft.averagers e he)

/-- What is written is so. -/
theorem Honest.of_written (hkeeps : Keeps env lo hi s)
    (h : Informed env lo hi s p st) {dests : List (Addr × ℕ)}
    (hdests : ∀ dest ∈ dests, s.time + dest.2 < 2 ^ 61)
    (hsub : s.sent ⊆ s'.sent) (htime : s'.time = s.time) {hb : SentHeartbeat}
    (hmem : hb ∈ s.newHeartbeats env p dests st) :
    Honest env lo hi s' hb := by
  have hturn := turn_wake env p (env.clock p s.time - st.timed.thread.now)
    (dests.map Prod.fst) st
  rw [Nat.add_sub_cancel' h.now] at hturn
  change Turn env _ st (s.awoken env p (dests.map Prod.fst) st) at hturn
  unfold newHeartbeats at hmem
  generalize s.awoken env p (dests.map Prod.fst) st = r at *
  obtain ⟨packet, hpacket, hwritten⟩ := List.mem_flatMap.mp hmem
  have hpacket := Option.mem_toList.mp hpacket
  obtain ⟨hnow, dest, hdest, hlater⟩ := of_mem_written hwritten
  refine ⟨?_, ?_, ?_, ?_, ?_⟩
  · rw [hnow.packet, hnow.sender, hturn.sourcePeerID packet hpacket,
      h.hbSettings, env.localPeerID_hbSettings]
  · rw [hnow.wokeAt, htime]
    exact ⟨le_rfl, hnow.writtenAt⟩
  · rw [hlater]
    exact hdests dest hdest
  · rw [hnow.packet, hnow.offset, hnow.sender]
  · intro info hinfo ti hti
    rw [hnow.packet] at hinfo
    rw [hnow.wokeAt]
    exact (h.answers hkeeps (hturn.answers packet hpacket info hinfo ti
      hti)).mono hsub

/-- What an event does to the system: nothing, or what it says. -/
inductive Steps (env : ClockEnvironment Addr) (s : ClockSystem Addr) :
    Event Addr → ClockSystem Addr → Prop
  | ignored (e : Event Addr) : Steps env s e s
  | timePasses (micros : ℕ) :
      Steps env s (.timePasses micros) { s with time := s.time + micros }
  | starts (p : ZGPeerID) : Steps env s (.starts p)
      { s with
        peers := Function.update s.peers p
          (some (.initialized env p (env.clock p s.time))) }
  | awakes (p : ZGPeerID) (dests : List (Addr × ℕ)) (st : SyncedThread Addr)
      (hp : s.peers p = some st) : Steps env s (.awakes p dests)
      { s with
        peers := Function.update s.peers p
          (some (s.awoken env p (dests.map Prod.fst) st).1)
        sent := s.sent ++ s.newHeartbeats env p dests st }
  | receives (p : ZGPeerID) (sourceIAP : Addr) (k : ℕ)
      (st : SyncedThread Addr) (hb : SentHeartbeat)
      (hp : s.peers p = some st) (hk : s.sent[k]? = some hb) :
      Steps env s (.receives p sourceIAP k)
      { s with
        peers := Function.update s.peers p
          (some (st.receiveMulticastTraffic sourceIAP hb.sourceTag hb.packet
            (env.clock p s.time))) }

theorem steps_step (env : ClockEnvironment Addr) (s : ClockSystem Addr)
    (e : Event Addr) : Steps env s e (s.step env e) := by
  cases e with
  | timePasses micros => exact .timePasses micros
  | starts p =>
      cases hp : s.peers p with
      | some st =>
          rw [ClockSystem.step, hp]
          exact .ignored _
      | none =>
          rw [ClockSystem.step, hp]
          exact .starts p
  | awakes p dests =>
      cases hp : s.peers p with
      | none =>
          rw [ClockSystem.step, hp]
          exact .ignored _
      | some st =>
          rw [ClockSystem.step, hp]
          exact .awakes p dests st hp
  | receives p sourceIAP k =>
      cases hp : s.peers p with
      | none =>
          rw [ClockSystem.step, hp]
          exact .ignored _
      | some st =>
          cases hk : s.sent[k]? with
          | none =>
              rw [ClockSystem.step, hp, hk]
              exact .ignored _
          | some hb =>
              rw [ClockSystem.step, hp, hk]
              exact .receives p sourceIAP k st hb hp hk

omit [DecidableEq Addr] [IPAddressAndPort Addr] in
/-- What holds of a peer that has changed, and of each of the others. -/
theorem forall_update {P : ZGPeerID → SyncedThread Addr → Prop}
    {peers : ZGPeerID → Option (SyncedThread Addr)} (hnew : P p st)
    (hothers : ∀ q st', q ≠ p → peers q = some st' → P q st') :
    ∀ q st', Function.update peers p (some st) q = some st' → P q st' := by
  intro q st' hst'
  by_cases hq : q = p
  · subst hq
    rw [Function.update_self] at hst'
    obtain rfl := Option.some.inj hst'
    exact hnew
  · rw [Function.update_of_ne hq] at hst'
    exact hothers q st' hq hst'

/-- **One event.** -/
theorem Keeps.step (hhi : hi < 2 ^ 28) (h : Keeps env lo hi s)
    {e : Event Addr} (htimely : Timely lo hi s e) :
    Keeps env lo hi (s.step env e) := by
  have hsteps := steps_step env s e
  generalize s.step env e = s' at *
  cases hsteps with
  | ignored => exact h
  | timePasses micros =>
      have hlater : Later s { s with time := s.time + micros } :=
        ⟨Nat.le_add_right _ _, fun _ hx => hx⟩
      exact ⟨htimely, fun hb hmem => (h.honest hb hmem).mono hlater,
        fun p st hst => (h.informed p st hst).elsewhere hlater
          fun _ hx _ => hx⟩
  | starts p =>
      refine ⟨h.time, fun hb hmem => (h.honest hb hmem).mono .of_eq,
        forall_update ?_ fun q st _ hst =>
          (h.informed q st hst).elsewhere .of_eq fun _ hx _ => hx⟩
      exact ⟨le_rfl, rfl, fun _ _ ht => (nomatch ht),
        fun _ _ ht => (nomatch ht), fun _ _ ht => (nomatch ht)⟩
  | awakes p dests st hp =>
      have hknown := h.informed p st hp
      obtain ⟨hdests, hfresh⟩ := htimely
      have hsub : s.sent ⊆ s.sent ++ s.newHeartbeats env p dests st :=
        List.subset_append_left _ _
      refine ⟨h.time, fun hb hmem => ?_,
        forall_update (hknown.awakes (hfresh st hp))
          fun q st' hq hst' => ?_⟩
      · rcases List.mem_append.mp hmem with hold | hnew
        · exact (h.honest hb hold).mono ⟨le_rfl, hsub⟩
        · refine .of_written h hknown hdests ?_ ?_ hnew
          · exact hsub
          · rfl
      · refine (h.informed q st' hst').elsewhere ⟨le_rfl, hsub⟩ ?_
        intro hb hmem hsender
        refine (List.mem_append.mp hmem).resolve_right fun hnew => ?_
        obtain ⟨packet, -, hwritten⟩ := List.mem_flatMap.mp hnew
        exact hq (hsender.symm.trans (of_mem_written hwritten).1.sender)
  | receives p sourceIAP k st hb hp hk =>
      have hmem : hb ∈ s.sent := List.mem_of_getElem? hk
      refine ⟨h.time, fun hb hmem => (h.honest hb hmem).mono .of_eq,
        forall_update ?_ fun q st' _ hst' =>
          (h.informed q st' hst').elsewhere .of_eq fun _ hx _ => hx⟩
      exact ((h.informed p st hp).receives hhi h hmem (htimely hb hk)
        sourceIAP).elsewhere .of_eq fun _ hx _ => hx

omit [IPAddressAndPort Addr] in
theorem keeps_initial : Keeps env lo hi initial :=
  ⟨Nat.two_pow_pos 61, fun _ h => (nomatch h), fun _ _ h => (nomatch h)⟩

end ZgChoir.ClockSystem
