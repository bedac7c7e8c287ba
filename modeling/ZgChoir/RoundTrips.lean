import ZgChoir.HeartbeatTables

/-!
# Round trips that are longer than the time they took

The dwell time of a timing entry is what the other peer's clock says.  It is
taken away from the time since the sending, in 64 bits without a sign; an
entry that claims more than that time has passed gives a round trip of half a
million years.  The measurement is sound exactly when the claim is not
(`measured_fits_iff`), and the code does not check it.
-/

namespace ZgChoir.TimedHeartbeatThread

variable {Addr : Type} [DecidableEq Addr]

/-- The round trip of an entry is at most the time since our heartbeat was
sent, and, as that was in the past, nothing wraps around. -/
def MeasuredEntry.Fits (e : MeasuredEntry Addr)
    (localReceiveTimeMicros : UInt64) (m : Measurement Addr) : Prop :=
  m.newMeasurementMicros ≤ localReceiveTimeMicros - e.packetLocalSendTime ∧
  (e.packetLocalSendTime ≤ localReceiveTimeMicros →
    m.newMeasurementMicros.toNat +
      (e.packetLocalSendTime.toNat + e.timing.dwellTimeMicros.toNat) =
      localReceiveTimeMicros.toNat)

omit [DecidableEq Addr] in
theorem MeasuredEntry.fits_iff (e : MeasuredEntry Addr) (t : UInt64) :
    e.Fits t (e.measurement t) ↔
      e.timing.dwellTimeMicros.toUInt64 ≤ t - e.packetLocalSendTime := by
  obtain ⟨addr, timing, sent⟩ := e
  unfold MeasuredEntry.Fits MeasuredEntry.measurement
  have hdwell : timing.dwellTimeMicros.toUInt64.toNat =
      timing.dwellTimeMicros.toNat := UInt32.toNat_toUInt64 _
  have hbound := timing.dwellTimeMicros.toNat_lt
  have ht := t.toNat_lt
  have hsent := sent.toNat_lt
  simp only [UInt64.le_iff_toNat_le, UInt64.toNat_sub, UInt64.toNat_add, hdwell]
  generalize timing.dwellTimeMicros.toNat = dwell at *
  generalize t.toNat = r at *
  generalize sent.toNat = s at *
  omega

/-- **Round trips.** What a heartbeat makes the thread add to its measurements
is at most the time since the sending exactly when the dwell time in the entry
that is measured is. -/
theorem measured_fits_iff (st : TimedHeartbeatThread Addr) (sourceIAP : Addr)
    (newHB : HeartbeatWire.PZGHeartbeatPacket)
    (localReceiveTimeMicros : UInt64) :
    (∀ e m, st.measuredEntry sourceIAP newHB = some e →
      st.measured sourceIAP newHB localReceiveTimeMicros = some m →
      e.Fits localReceiveTimeMicros m) ↔
    ∀ e, st.measuredEntry sourceIAP newHB = some e →
      e.timing.dwellTimeMicros.toUInt64 ≤
        localReceiveTimeMicros - e.packetLocalSendTime := by
  unfold measured
  cases hentry : st.measuredEntry sourceIAP newHB with
  | none => simp
  | some e =>
      constructor
      · intro h e' he'
        obtain rfl : e = e' := Option.some.inj he'
        exact (e.fits_iff _).mp (h e _ rfl rfl)
      · intro h e' m he' hm
        obtain rfl : e = e' := Option.some.inj he'
        obtain rfl := Option.some.inj hm
        exact (e.fits_iff _).mpr (h e rfl)

/-! ### A clock that is wrong -/

/-- The settings of a peer that is a full one. -/
def exampleSettings : PZGHeartbeatSettings where
  localPeerID := ⟨1, 1⟩
  systemKey := 4
  versionCode := 5
  peerType := peerTypeFullPeer
  heartbeatsPerSecond := 2
  maxNumMissingHeartbeats := 6
  heartbeatsBeforeFullyAttached := 4

/-- A heartbeat of another peer, that answers the heartbeat 7 of ours with a
dwell time. -/
def exampleHeartbeat (dwellTimeMicros : UInt32) :
    HeartbeatWire.PZGHeartbeatPacket where
  heartbeatPacketID := 20
  versionCode := 5
  systemKey := 4
  networkSendTimeMicros := 0
  tcpAcceptPort := 6
  peerType := peerTypeFullPeer
  peerUptimeSeconds := 0
  sourcePeerID := ⟨2, 2⟩
  orderedPeersList := [⟨⟨1, 1⟩, [⟨1, 7, dwellTimeMicros⟩]⟩]
  isFullyAttached := false
  peerAttributesBuf := none

/-- A thread that has sent its heartbeat 7 at the time 1000, to the address
9, and has heard of the other peer at the time 1200. -/
def exampleThread : TimedHeartbeatThread ℕ :=
  letI : IPAddressAndPort ℕ := ⟨fun _ => true⟩
  Runs.run (step fun _ => 0) (initialized exampleSettings 1000 6)
    [.awoke 0 [9], .received 5 3 (exampleHeartbeat muscleNoLimit) 1200]

example : exampleThread.measured 5 (exampleHeartbeat 300) 1500 =
    some ⟨9, 200⟩ := by decide

/-- The other peer says that it has kept the heartbeat for 600 microseconds,
but only 500 have passed since it was sent. -/
theorem measured_wraps :
    exampleThread.measuredEntry 5 (exampleHeartbeat 600) =
      some ⟨9, ⟨1, 7, 600⟩, 1000⟩ ∧
    exampleThread.measured 5 (exampleHeartbeat 600) 1500 =
      some ⟨9, 18446744073709551516⟩ ∧
    ¬(⟨9, ⟨1, 7, 600⟩, 1000⟩ : MeasuredEntry ℕ).Fits 1500
      ⟨9, 18446744073709551516⟩ :=
  ⟨by decide, by decide, fun h => absurd h.1 (by decide)⟩

end ZgChoir.TimedHeartbeatThread
